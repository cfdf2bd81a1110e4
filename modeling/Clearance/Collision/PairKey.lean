/-!
# Pairs of names

Two bodies are named in either order; the pair of their names is kept with the smaller one first.
Names are compared by the code points of their characters.

* `pairKey_comm`: the order in which the names are given does not matter.
-/

namespace Clearance

/-- The unordered pair of two names, the smaller one first (`pair_key`). -/
def pairKey (a b : String) : String × String := if b < a then (b, a) else (a, b)

/-- A pair does not depend on the order in which its names are given. -/
theorem pairKey_comm (a b : String) : pairKey a b = pairKey b a := by
  unfold pairKey
  by_cases h : b < a
  · have h' : ¬a < b := fun h' => String.lt_irrefl _ (String.lt_trans h h')
    simp [h, h']
  · by_cases h' : a < b
    · simp [h, h']
    · have : a = b := String.le_antisymm (String.not_lt.mp h) (String.not_lt.mp h')
      simp [this]

/-- Two pairs are equal if they hold the same names. -/
theorem pairKey_eq_iff (a b c d : String) :
    pairKey a b = pairKey c d ↔ (a = c ∧ b = d) ∨ (a = d ∧ b = c) := by
  constructor
  · unfold pairKey
    intro h
    split at h <;> split at h <;> simp only [Prod.mk.injEq] at h <;> simp [h.1, h.2]
  · rintro (⟨rfl, rfl⟩ | ⟨rfl, rfl⟩)
    · rfl
    · exact pairKey_comm _ _

end Clearance
