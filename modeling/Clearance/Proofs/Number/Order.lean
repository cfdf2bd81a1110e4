import Clearance.Scalar

/-!
# Laws of comparisons

What the comparisons of a number system have to satisfy so that the order of distances and the
equality of keys mean something. A not-a-number is a scalar that is not even below itself; every law
holds of it too, because no comparison does.

* `LawfulScalar`: the laws.
* `Scalar.eq_symm`, `Scalar.eq_trans`: equality of scalars is symmetric and transitive. It is
  reflexive only on numbers.
* `Scalar.le_of_not_lt`: the order of numbers is linear.
* `Scalar.min_le_iff`, `Scalar.foldl_min_le_iff`: when a minimum is within a bound. One member that is
  not a number makes it one that is within none.
-/

namespace Clearance

/-- The laws of comparisons. Binary64 numbers and the real numbers satisfy them. -/
class LawfulScalar (α : Type) [Scalar α] : Prop where
  le_trans {a b c : α} : Scalar.le a b = true → Scalar.le b c = true → Scalar.le a c = true
  /-- What takes part in a comparison is a number. -/
  le_self_of_le {a b : α} : Scalar.le a b = true → Scalar.le a a = true ∧ Scalar.le b b = true
  /-- Any two numbers can be compared. -/
  le_total {a b : α} : Scalar.le a a = true → Scalar.le b b = true →
    Scalar.le a b = true ∨ Scalar.le b a = true
  lt_iff {a b : α} : Scalar.lt a b = true ↔ Scalar.le a b = true ∧ Scalar.le b a = false
  /-- Equal scalars are equal to the same integer. -/
  whole?_congr {a b : α} : Scalar.le a b = true → Scalar.le b a = true →
    Scalar.whole? a = Scalar.whole? b

namespace Scalar

variable {α : Type} [Scalar α]

theorem eq_iff {a b : α} : Scalar.eq a b = true ↔ Scalar.le a b = true ∧ Scalar.le b a = true := by
  simp [Scalar.eq]

theorem eq_symm {a b : α} (h : Scalar.eq a b = true) : Scalar.eq b a = true := by
  rw [eq_iff] at h ⊢
  exact ⟨h.2, h.1⟩

theorem isNaN_iff_le_self {a : α} : Scalar.isNaN a = true ↔ Scalar.le a a = false := by
  simp [Scalar.isNaN, Scalar.eq]

theorem le_self_iff {a : α} : Scalar.le a a = true ↔ Scalar.isNaN a = false := by
  rw [← Bool.not_eq_true, isNaN_iff_le_self, Bool.not_eq_false]

/-- The first scalar is the minimum if it is at most the second one, or not a number. -/
theorem min_cases (a b : α) :
    (Scalar.le a b = true ∨ Scalar.le a a = false) ∧ Scalar.min a b = a ∨
      Scalar.le a b = false ∧ Scalar.le a a = true ∧ Scalar.min a b = b := by
  unfold Scalar.min
  rw [← isNaN_iff_le_self, le_self_iff]
  cases Scalar.le a b <;> cases Scalar.isNaN a <;> simp

variable [LawfulScalar α]

/-- A number that is not beyond another is at most that. -/
theorem le_of_not_lt {a b : α} (ha : Scalar.le a a = true) (hb : Scalar.le b b = true) (h : Scalar.lt b a ≠ true) :
    Scalar.le a b = true := by
  cases hab : Scalar.le a b with
  | true => rfl
  | false =>
    have hba := (LawfulScalar.le_total ha hb).resolve_left (Bool.eq_false_iff.mp hab)
    exact absurd (LawfulScalar.lt_iff.mpr ⟨hba, hab⟩) h

theorem eq_trans {a b c : α} (h : Scalar.eq a b = true) (h' : Scalar.eq b c = true) :
    Scalar.eq a c = true := by
  rw [eq_iff] at h h' ⊢
  exact ⟨LawfulScalar.le_trans h.1 h'.1, LawfulScalar.le_trans h'.2 h.2⟩

/-! ## Minima -/

/-- The minimum is a number if both scalars are. -/
theorem min_self_iff {a b : α} :
    Scalar.le (Scalar.min a b) (Scalar.min a b) = true ↔ Scalar.le a a = true ∧ Scalar.le b b = true := by
  rcases min_cases a b with ⟨hab | ha, hmin⟩ | ⟨-, ha, hmin⟩
  · simp [hmin, (LawfulScalar.le_self_of_le hab).2]
  · simp [hmin, ha]
  · simp [hmin, ha]

/-- The minimum is within a bound if one of the scalars is, and both are numbers. -/
theorem min_le_iff {a b c : α} :
    Scalar.le (Scalar.min a b) c = true ↔
      (Scalar.le a c = true ∨ Scalar.le b c = true) ∧ Scalar.le a a = true ∧ Scalar.le b b = true := by
  rcases min_cases a b with ⟨hab | ha, hmin⟩ | ⟨hab, ha, hmin⟩
  · obtain ⟨ha, hb⟩ := LawfulScalar.le_self_of_le hab
    rw [hmin]
    exact ⟨fun h => ⟨.inl h, ha, hb⟩, fun ⟨h, _⟩ => h.elim id (LawfulScalar.le_trans hab)⟩
  · rw [hmin]
    constructor
    · intro h
      rw [(LawfulScalar.le_self_of_le h).1] at ha
      cases ha
    · rintro ⟨-, h, -⟩
      rw [h] at ha
      cases ha
  · rw [hmin]
    constructor
    · intro h
      exact ⟨.inr h, ha, (LawfulScalar.le_self_of_le h).1⟩
    · rintro ⟨h, -, hb⟩
      have hba := (LawfulScalar.le_total ha hb).resolve_left (Bool.eq_false_iff.mp hab)
      exact h.elim (LawfulScalar.le_trans hba) id

/-- The least of a list is within a bound if some member is, and all members are numbers. -/
theorem foldl_min_le_iff (xs : List α) (a : α) {c : α} :
    Scalar.le (xs.foldl Scalar.min a) c = true ↔
      (∃ x ∈ a :: xs, Scalar.le x c = true) ∧ ∀ x ∈ a :: xs, Scalar.le x x = true := by
  induction xs generalizing a with
  | nil =>
    simp only [List.foldl_nil, List.mem_singleton, exists_eq_left, forall_eq]
    exact ⟨fun h => ⟨h, (LawfulScalar.le_self_of_le h).1⟩, And.left⟩
  | cons b xs ih =>
    rw [List.foldl_cons, ih]
    simp only [List.mem_cons, forall_eq_or_imp, or_and_right, exists_or, exists_eq_left, min_self_iff]
    -- Only now, since this would open the comparison of the minimum with itself too.
    rw [min_le_iff]
    grind

end Scalar

end Clearance
