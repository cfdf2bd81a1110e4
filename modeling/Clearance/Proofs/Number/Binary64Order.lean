import Mathlib.Tactic.SplitIfs
import Clearance.Number.Float
import Clearance.Proofs.Number.Order

/-!
# The order of binary64 numbers

Binary64 numbers satisfy the laws of comparisons. Sign, exponent and significand are compared one
after the other, which is the lexicographic order of three integers; only a not-a-number has no
place in it.

* `Binary64.rank?`, `Binary64.compare_eq`: the place of a number, by which it is compared.
* `Binary64.le_iff`, `Binary64.lt_iff`: the two comparisons of the library in terms of places.
* The instance `LawfulScalar Float`.
-/

namespace Clearance.Binary64

open Float.Model (UnpackedFloat)

/-! ## Places in the order -/

/-- Where a number stands: its class from minus to plus infinity, then its exponent, then its
    significand. A not-a-number stands nowhere. -/
def rank? : UnpackedFloat → Option (Int × Int × Int)
  | .notANumber => none
  | .infinity .negative => some (-2, 0, 0)
  | .finite .negative m e _ => some (-1, -e, -m)
  | .zero _ => some (0, 0, 0)
  | .finite .positive m e _ => some (1, e, m)
  | .infinity .positive => some (2, 0, 0)

/-- The lexicographic order of places. -/
def Before (r s : Int × Int × Int) : Prop :=
  r.1 < s.1 ∨ r.1 = s.1 ∧ (r.2.1 < s.2.1 ∨ r.2.1 = s.2.1 ∧ r.2.2 < s.2.2)

instance (r s : Int × Int × Int) : Decidable (Before r s) := by unfold Before; infer_instance

theorem Before.asymm {r s : Int × Int × Int} (h : Before r s) : ¬Before s r := by
  unfold Before at *; omega

theorem not_before_trans {r s t : Int × Int × Int} (h : ¬Before s r) (h' : ¬Before t s) :
    ¬Before t r := by
  unfold Before at *; omega

theorem eq_of_not_before {r s : Int × Int × Int} (h : ¬Before r s) (h' : ¬Before s r) : r = s := by
  unfold Before at *
  refine Prod.ext ?_ (Prod.ext ?_ ?_) <;> omega

/-- How two places compare. -/
def compareRanks (r s : Int × Int × Int) : Ordering :=
  if Before r s then .lt else if Before s r then .gt else .eq

theorem compareRanks_self_class (c e m e' m' : Int) :
    compareRanks (c, e, m) (c, e', m') = (compare e e').then (compare m m') := by
  simp only [compareRanks, Before, Int.compare_eq_ite_lt, Int.lt_irrefl, false_or, true_and]
  split_ifs <;> first | rfl | (exfalso; omega)

theorem compare_natCast (m m' : Nat) : compare (m : Int) (m' : Int) = compare m m' := by
  simp only [Int.compare_eq_ite_lt, Nat.compare_eq_ite_lt, Int.ofNat_lt]

theorem compare_neg (e e' : Int) : compare (-e) (-e') = (compare e e').swap := by
  simp only [Int.compare_eq_ite_lt]
  split_ifs <;> first | rfl | (exfalso; omega)

/-- Numbers compare as their places do. -/
theorem compare_eq (a b : UnpackedFloat) :
    UnpackedFloat.compare a b = (rank? a).bind fun r => (rank? b).map (compareRanks r) := by
  rcases a with ⟨⟨⟩⟩ | _ | _ | ⟨⟨⟩, m, e, hm⟩ <;> rcases b with ⟨⟨⟩⟩ | _ | _ | ⟨⟨⟩, m', e', hm'⟩ <;>
    try rfl
  -- The classes of two finite numbers of one sign are equal, so exponent and significand decide.
  · show some _ = some (compareRanks (-1, -e, -m) (-1, -e', -m'))
    rw [compareRanks_self_class, compare_neg, compare_neg, compare_natCast, ← Ordering.swap_then]
  · show some _ = some (compareRanks (1, e, m) (1, e', m'))
    rw [compareRanks_self_class, compare_natCast]

/-! ## Comparisons -/

theorem le_iff {x y : Float} :
    Scalar.le x y = true ↔
      ∃ r s, rank? x.toModel.unpack = some r ∧ rank? y.toModel.unpack = some s ∧ ¬Before s r := by
  have h : Scalar.le x y = true ↔
      (UnpackedFloat.compare x.toModel.unpack y.toModel.unpack).any (·.isLE) = true :=
    decide_eq_true_iff.trans decide_eq_true_iff
  rw [h, compare_eq]
  cases rank? x.toModel.unpack with
  | none => simp
  | some r =>
    cases rank? y.toModel.unpack with
    | none => simp
    | some s =>
      simp only [Option.bind_some, Option.map_some, Option.any_some, compareRanks,
        Option.some.injEq]
      split_ifs with h1 h2
      · simpa using h1.asymm
      · simpa using h2
      · simpa using h2

theorem lt_iff {x y : Float} :
    Scalar.lt x y = true ↔
      ∃ r s, rank? x.toModel.unpack = some r ∧ rank? y.toModel.unpack = some s ∧ Before r s := by
  have h : Scalar.lt x y = true ↔
      (UnpackedFloat.compare x.toModel.unpack y.toModel.unpack == some .lt) = true :=
    decide_eq_true_iff.trans decide_eq_true_iff
  rw [h, compare_eq]
  cases rank? x.toModel.unpack with
  | none => simp
  | some r =>
    cases rank? y.toModel.unpack with
    | none => simp
    | some s =>
      simp only [Option.bind_some, Option.map_some, compareRanks, Option.some.injEq]
      split_ifs with h1 h2 <;> simp [h1]

/-! ## Integers among the numbers -/

/-- Equal numbers differ at most in the sign of a zero, which does not tell what integer they
    are. -/
theorem whole?_congr {x y : Float} (h : rank? x.toModel.unpack = rank? y.toModel.unpack) :
    whole? x = whole? y := by
  unfold whole?
  generalize x.toModel.unpack = a at *
  generalize y.toModel.unpack = b at *
  rcases a with ⟨⟨⟩⟩ | _ | _ | ⟨⟨⟩, m, e, hm⟩ <;> rcases b with ⟨⟨⟩⟩ | _ | _ | ⟨⟨⟩, m', e', hm'⟩ <;>
    dsimp only [rank?] at h <;>
    simp only [Option.some.injEq, Prod.mk.injEq, reduceCtorEq, false_and] at h <;>
    try first | rfl | omega
  all_goals
    obtain rfl : e = e' := by omega
    obtain rfl : m = m' := by omega
    rfl

end Clearance.Binary64

namespace Clearance

open Binary64 in
instance : LawfulScalar Float where
  le_trans h h' := by
    obtain ⟨r, s, hr, hs, h1⟩ := le_iff.mp h
    obtain ⟨s', t, hs', ht, h2⟩ := le_iff.mp h'
    obtain rfl : s = s' := by simpa [hs] using hs'
    exact le_iff.mpr ⟨r, t, hr, ht, not_before_trans h1 h2⟩
  le_self_of_le h := by
    obtain ⟨r, s, hr, hs, _⟩ := le_iff.mp h
    exact ⟨le_iff.mpr ⟨r, r, hr, hr, fun h => h.asymm h⟩,
      le_iff.mpr ⟨s, s, hs, hs, fun h => h.asymm h⟩⟩
  le_total h h' := by
    obtain ⟨r, _, hr, _, _⟩ := le_iff.mp h
    obtain ⟨s, _, hs, _, _⟩ := le_iff.mp h'
    by_cases hb : Before s r
    · exact Or.inr (le_iff.mpr ⟨s, r, hs, hr, hb.asymm⟩)
    · exact Or.inl (le_iff.mpr ⟨r, s, hr, hs, hb⟩)
  lt_iff := by
    intro a b
    rw [← Bool.not_eq_true, lt_iff, le_iff, le_iff]
    constructor
    · rintro ⟨r, s, hr, hs, h⟩
      refine ⟨⟨r, s, hr, hs, h.asymm⟩, ?_⟩
      rintro ⟨s', r', hs', hr', h'⟩
      obtain rfl : r = r' := by simpa [hr] using hr'
      obtain rfl : s = s' := by simpa [hs] using hs'
      exact h' h
    · rintro ⟨⟨r, s, hr, hs, _⟩, h⟩
      exact ⟨r, s, hr, hs, Classical.not_not.mp fun h' => h ⟨s, r, hs, hr, h'⟩⟩
  whole?_congr h h' := by
    obtain ⟨r, s, hr, hs, h1⟩ := le_iff.mp h
    obtain ⟨s', r', hs', hr', h2⟩ := le_iff.mp h'
    obtain rfl : r = r' := by simpa [hr] using hr'
    obtain rfl : s = s' := by simpa [hs] using hs'
    exact whole?_congr (by rw [hr, hs, eq_of_not_before h2 h1])

end Clearance
