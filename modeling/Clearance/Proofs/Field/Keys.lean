import Clearance.Field.Cache
import Clearance.Proofs.Number.Order

/-!
# Sameness of keys

Kept fields are found by comparing keys, and a key that holds something that is not a number is not
even the same as itself. What the accounts of a cache rest on is that the comparison is symmetric
and transitive.

* `IsPartialEquiv`: symmetry and transitivity of a Boolean comparison, with the ways in which
  comparisons are made of others.
* `Given.isPartialEquiv_same`: parameters, where an integer and a scalar may be the same key.
* `FieldKey.same_symm`, `FieldKey.same_trans`: keys.
-/

namespace Clearance

/-- A comparison that is symmetric and transitive, but that need not hold of a thing and itself. -/
structure IsPartialEquiv {β : Type} (r : β → β → Bool) : Prop where
  symm {a b : β} : r a b = true → r b a = true
  trans {a b c : β} : r a b = true → r b c = true → r a c = true

namespace IsPartialEquiv

variable {β γ : Type} {r s : β → β → Bool}

/-- Things compared by a part of them. -/
theorem comap (h : IsPartialEquiv r) (f : γ → β) : IsPartialEquiv fun a b => r (f a) (f b) where
  symm := h.symm
  trans := h.trans

/-- Things compared in two ways at once. -/
theorem and (h : IsPartialEquiv r) (h' : IsPartialEquiv s) :
    IsPartialEquiv fun a b => r a b && s a b where
  symm := by
    intro a b hab
    rw [Bool.and_eq_true_iff] at hab ⊢
    exact ⟨h.symm hab.1, h'.symm hab.2⟩
  trans := by
    intro a b c hab hbc
    rw [Bool.and_eq_true_iff] at hab hbc ⊢
    exact ⟨h.trans hab.1 hbc.1, h'.trans hab.2 hbc.2⟩

/-- Lists compared place by place. -/
theorem all (h : IsPartialEquiv r) : IsPartialEquiv (FieldKey.sameAll r) where
  symm := by
    intro as
    induction as with
    | nil => intro bs hab; cases bs <;> first | rfl | cases hab
    | cons a as ih =>
      intro bs hab
      cases bs with
      | nil => cases hab
      | cons b bs =>
        rw [FieldKey.sameAll, Bool.and_eq_true_iff] at hab ⊢
        exact ⟨h.symm hab.1, ih hab.2⟩
  trans := by
    intro as
    induction as with
    | nil => intro bs cs hab hbc; cases bs <;> first | exact hbc | cases hab
    | cons a as ih =>
      intro bs cs hab hbc
      cases bs with
      | nil => cases hab
      | cons b bs =>
        cases cs with
        | nil => cases hbc
        | cons c cs =>
          rw [FieldKey.sameAll, Bool.and_eq_true_iff] at hab hbc ⊢
          exact ⟨h.trans hab.1 hbc.1, ih hab.2 hbc.2⟩

end IsPartialEquiv

variable {α : Type} [Scalar α] [LawfulScalar α]

omit [LawfulScalar α] in
theorem Scalar.isNaN_iff {x : α} : Scalar.isNaN x = true ↔ Scalar.eq x x = false := by
  rw [Scalar.isNaN, Bool.not_eq_true']

theorem Scalar.isPartialEquiv_eq : IsPartialEquiv (Scalar.eq : α → α → Bool) where
  symm := Scalar.eq_symm
  trans := Scalar.eq_trans

/-! ## Parameters -/

namespace Given

omit [LawfulScalar α] in
theorem equalsInt_iff {x : α} {n : Int} :
    equalsInt x n = true ↔ Scalar.whole? x = some n ∧ Scalar.eq x (Scalar.ofInt n) = true := by
  rw [equalsInt, Bool.and_eq_true_iff, beq_iff_eq]

/-- Equal scalars are equal to the same integers. -/
theorem equalsInt_congr {x y : α} (h : Scalar.eq x y = true) {n : Int} (hx : equalsInt x n = true) :
    equalsInt y n = true := by
  rw [equalsInt_iff] at hx ⊢
  have hxy := Scalar.eq_iff.mp h
  rw [← LawfulScalar.whole?_congr hxy.1 hxy.2]
  exact ⟨hx.1, Scalar.eq_trans (Scalar.eq_symm h) hx.2⟩

/-- The ways in which two parameters are the same key. -/
inductive Same : Given α → Given α → Prop where
  | text (s : String) (x y : Option α) : Same (.text s x) (.text s y)
  | scalars {x y : α} : Scalar.eq x y = true → Same (.real x) (.real y)
  | notNumbers {x y : α} : Scalar.eq x x = false → Scalar.eq y y = false → Same (.real x) (.real y)
  | integers {a b : Given α} {n : Int} : a.int? = some n → b.int? = some n → Same a b
  | scalarInteger {x : α} {b : Given α} {n : Int} : equalsInt x n = true → b.int? = some n →
      Same (.real x) b
  | integerScalar {a : Given α} {y : α} {n : Int} : a.int? = some n → equalsInt y n = true →
      Same a (.real y)

omit [LawfulScalar α] in
/-- How a parameter that stands for an integer is compared. -/
theorem same_of_int? {a : Given α} {m : Int} (h : a.int? = some m) (b : Given α) :
    a.same b = match b with
      | .real y => equalsInt y m
      | b => b.int?.any (m == ·) := by
  cases a with
  | int n => cases h; cases b <;> rfl
  | bool c => cases h; cases b <;> rfl
  | _ => cases h

omit [LawfulScalar α] in
theorem same_iff_of_int? {a b : Given α} {m : Int} (h : a.int? = some m) :
    a.same b = true ↔ Same a b := by
  have any_iff : ∀ o : Option Int, o.any (m == ·) = true ↔ o = some m := by
    intro o
    cases o with
    | none => simp
    | some n => rw [Option.any_some, beq_iff_eq, Option.some.injEq, eq_comm]
  rw [same_of_int? h]
  constructor
  · intro hb
    cases b with
    | real y => exact .integerScalar h hb
    | _ => exact .integers h ((any_iff _).mp hb)
  · intro hab
    cases hab with
    | integers h' hb =>
      obtain rfl := Option.some.inj (h.symm.trans h')
      cases b with
      | real y => cases hb
      | _ => exact (any_iff _).mpr hb
    | integerScalar h' hy =>
      obtain rfl := Option.some.inj (h.symm.trans h')
      exact hy
    | _ => cases h

omit [LawfulScalar α] in
theorem same_iff {a b : Given α} : a.same b = true ↔ Same a b := by
  cases a with
  | int m => exact same_iff_of_int? rfl
  | bool c => exact same_iff_of_int? rfl
  | text s x =>
    constructor
    · intro h
      cases b with
      | text t y => obtain rfl : s = t := beq_iff_eq.mp h; exact .text s x y
      | _ => cases h
    · intro h
      cases h with
      | text => exact beq_self_eq_true s
      | integers h' => cases h'
      | integerScalar h' => cases h'
  | real x =>
    constructor
    · intro h
      cases b with
      | real y =>
        rw [same, Bool.or_eq_true_iff, Bool.and_eq_true_iff, Scalar.isNaN_iff,
          Scalar.isNaN_iff] at h
        exact h.elim .scalars fun h => .notNumbers h.1 h.2
      | int n => exact .scalarInteger h rfl
      | bool b => exact .scalarInteger h rfl
      | _ => cases h
    · intro h
      cases h with
      | scalars h => rw [same, h, Bool.true_or]
      | notNumbers h h' =>
        rw [same, Scalar.isNaN_iff.mpr h, Scalar.isNaN_iff.mpr h', Bool.and_self, Bool.or_true]
      | scalarInteger h h' =>
        cases b with
        | int n => cases h'; exact h
        | bool b => cases h'; exact h
        | _ => cases h'
      | integers h' => cases h'
      | integerScalar h' => cases h'
  | other =>
    constructor
    · intro h
      cases b <;> cases h
    · intro h
      cases h with
      | integers h' => cases h'
      | integerScalar h' => cases h'

omit [LawfulScalar α] in
theorem Same.symm {a b : Given α} (h : Same a b) : Same b a := by
  cases h with
  | text s x y => exact .text s y x
  | scalars h => exact .scalars (Scalar.eq_symm h)
  | notNumbers h h' => exact .notNumbers h' h
  | integers h h' => exact .integers h' h
  | scalarInteger h h' => exact .integerScalar h' h
  | integerScalar h h' => exact .scalarInteger h' h

/-- A scalar that is equal to something is a number. -/
theorem not_isNaN_of_eq {x y : α} (h : Scalar.eq x y = true) : Scalar.eq x x = true :=
  Scalar.eq_trans h (Scalar.eq_symm h)

theorem Same.trans {a b c : Given α} (h : Same a b) (h' : Same b c) : Same a c := by
  cases h with
  | text s x y =>
    cases h' with
    | text s y z => exact .text s x z
    | integers h' => cases h'
    | integerScalar h' => cases h'
  | scalars h =>
    cases h' with
    | scalars h' => exact .scalars (Scalar.eq_trans h h')
    | notNumbers h' => rw [not_isNaN_of_eq (Scalar.eq_symm h)] at h'; cases h'
    | scalarInteger h' hc => exact .scalarInteger (equalsInt_congr (Scalar.eq_symm h) h') hc
    | integers h' => cases h'
    | integerScalar h' => cases h'
  | notNumbers h hb =>
    cases h' with
    | scalars h' => rw [not_isNaN_of_eq h'] at hb; cases hb
    | notNumbers _ h' => exact .notNumbers h h'
    | scalarInteger h' hc =>
      rw [not_isNaN_of_eq (equalsInt_iff.mp h').2] at hb
      cases hb
    | integers h' => cases h'
    | integerScalar h' => cases h'
  | integers h hb =>
    cases h' with
    | integers hb' h' =>
      obtain rfl := Option.some.inj (hb.symm.trans hb')
      exact .integers h h'
    | integerScalar hb' h' =>
      obtain rfl := Option.some.inj (hb.symm.trans hb')
      exact .integerScalar h h'
    | _ => cases hb
  | scalarInteger h hb =>
    cases h' with
    | integers hb' h' =>
      obtain rfl := Option.some.inj (hb.symm.trans hb')
      exact .scalarInteger h h'
    | integerScalar hb' h' =>
      obtain rfl := Option.some.inj (hb.symm.trans hb')
      exact .scalars (Scalar.eq_trans (equalsInt_iff.mp h).2
        (Scalar.eq_symm (equalsInt_iff.mp h').2))
    | _ => cases hb
  | integerScalar h hy =>
    cases h' with
    | scalars h' => exact .integerScalar h (equalsInt_congr h' hy)
    | notNumbers h' => rw [not_isNaN_of_eq (equalsInt_iff.mp hy).2] at h'; cases h'
    | scalarInteger h' hc =>
      obtain rfl := Option.some.inj ((equalsInt_iff.mp hy).1.symm.trans (equalsInt_iff.mp h').1)
      exact .integers h hc
    | integers h' => cases h'
    | integerScalar h' => cases h'

theorem isPartialEquiv_same : IsPartialEquiv (same : Given α → Given α → Bool) where
  symm h := same_iff.mpr (same_iff.mp h).symm
  trans h h' := same_iff.mpr ((same_iff.mp h).trans (same_iff.mp h'))

end Given

/-! ## Keys -/

theorem Digest.isPartialEquiv_same : IsPartialEquiv (Digest.same : Digest α → Digest α → Bool) where
  symm := by
    intro a b h
    cases a <;> cases b <;> simp only [Digest.same, Bool.and_eq_true_iff, beq_iff_eq,
      reduceCtorEq] at h ⊢
    · exact ⟨⟨Scalar.eq_symm h.1.1, Scalar.eq_symm h.1.2⟩, Scalar.eq_symm h.2⟩
    · exact Scalar.eq_symm h
    · exact ⟨Scalar.eq_symm h.1, Scalar.eq_symm h.2⟩
    · exact ⟨h.1.symm, Scalar.eq_symm h.2⟩
  trans := by
    intro a b c h h'
    cases a <;> cases b <;> cases c <;>
      simp only [Digest.same, Bool.and_eq_true_iff, beq_iff_eq, reduceCtorEq] at h h' ⊢
    · exact ⟨⟨Scalar.eq_trans h.1.1 h'.1.1, Scalar.eq_trans h.1.2 h'.1.2⟩, Scalar.eq_trans h.2 h'.2⟩
    · exact Scalar.eq_trans h h'
    · exact ⟨Scalar.eq_trans h.1 h'.1, Scalar.eq_trans h.2 h'.2⟩
    · exact ⟨h.1.trans h'.1, Scalar.eq_trans h.2 h'.2⟩

namespace FieldKey

theorem isPartialEquiv_sameVec : IsPartialEquiv (sameVec : Vec3 α → Vec3 α → Bool) :=
  ((Scalar.isPartialEquiv_eq.comap Vec3.x).and (Scalar.isPartialEquiv_eq.comap Vec3.y)).and
    (Scalar.isPartialEquiv_eq.comap Vec3.z)

theorem isPartialEquiv_samePose : IsPartialEquiv (samePose : Motion α → Motion α → Bool) :=
  (((isPartialEquiv_sameVec.comap fun m : Motion α => m.rotation.row1).and
    (isPartialEquiv_sameVec.comap fun m : Motion α => m.rotation.row2)).and
    (isPartialEquiv_sameVec.comap fun m : Motion α => m.rotation.row3)).and
    (isPartialEquiv_sameVec.comap Motion.shift)

theorem isPartialEquiv_sameOption :
    IsPartialEquiv (sameOption : Option (Given α) → Option (Given α) → Bool) where
  symm := by
    intro a b h
    cases a <;> cases b <;> first | rfl | cases h | exact Given.isPartialEquiv_same.symm h
  trans := by
    intro a b c h h'
    cases a <;> cases b <;> cases c <;>
      first | exact h | exact h' | exact Given.isPartialEquiv_same.trans h h' | cases h

theorem isPartialEquiv_same : IsPartialEquiv (same : FieldKey α → FieldKey α → Bool) :=
  ((((Digest.isPartialEquiv_same.all.comap FieldKey.shapes).and
    (isPartialEquiv_samePose.all.comap FieldKey.poses)).and
    (Given.isPartialEquiv_same.comap FieldKey.resolution)).and
    (isPartialEquiv_sameOption.comap FieldKey.padding)).and
    (isPartialEquiv_sameOption.comap FieldKey.maxDims)

theorem same_symm {a b : FieldKey α} (h : a.same b = true) : b.same a = true :=
  isPartialEquiv_same.symm h

theorem same_trans {a b c : FieldKey α} (h : a.same b = true) (h' : b.same c = true) :
    a.same c = true :=
  isPartialEquiv_same.trans h h'

end FieldKey

end Clearance
