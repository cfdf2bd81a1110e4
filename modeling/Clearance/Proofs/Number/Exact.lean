import Mathlib.Analysis.SpecialFunctions.Pow.Real
import Mathlib.Analysis.SpecialFunctions.Trigonometric.Inverse
import Clearance.Proofs.Number.Order

/-!
# The real numbers as scalars

The reading of the library in exact arithmetic: every operation is the one of the real numbers,
nothing is rounded, and every scalar is a number.

* The instances `Scalar ℝ` and `LawfulScalar ℝ`.
* `Exact.le_iff`, `Exact.lt_iff` and the other simp lemmas: what the operations of the library are.
* `Exact.le_of_maximum`, `Exact.minimum_eq_some_iff`: the extrema of lists.
-/

namespace Clearance

/-- The nearest integer, a half going to the even neighbour. -/
noncomputable def Exact.roundEven (x : ℝ) : ℤ :=
  if x - ⌊x⌋ < 1 / 2 then ⌊x⌋
  else if 1 / 2 < x - ⌊x⌋ then ⌊x⌋ + 1
  else if Even ⌊x⌋ then ⌊x⌋ else ⌊x⌋ + 1

open Classical in
/-- The real numbers. A real number is stored in no word, so all words are the same. -/
noncomputable instance : Scalar ℝ where
  ofInt n := (n : ℝ)
  ofDecimal m negative e := if negative then (m : ℝ) / 10 ^ e else (m : ℝ) * 10 ^ e
  le a b := decide (a ≤ b)
  lt a b := decide (a < b)
  sqrt := Real.sqrt
  sin := Real.sin
  cos := Real.cos
  acos := Real.arccos
  pow := fun a b => a ^ b
  pi := Real.pi
  floor := Int.floor
  ceilCount := Int.ceil
  rint x := (Exact.roundEven x : ℝ)
  whole? x := if x = ⌊x⌋ then some ⌊x⌋ else none
  roundPlaces n x := (Exact.roundEven (x * 10 ^ n) : ℝ) / 10 ^ n
  bits _ := 0

namespace Exact

variable {a b x : ℝ}

@[simp] theorem ofInt_eq (n : ℤ) : (Scalar.ofInt n : ℝ) = n := rfl

@[simp] theorem le_iff : Scalar.le a b = true ↔ a ≤ b := decide_eq_true_iff

@[simp] theorem lt_iff : Scalar.lt a b = true ↔ a < b := decide_eq_true_iff

@[simp] theorem sqrt_eq : Scalar.sqrt x = √x := rfl

@[simp] theorem sin_eq : Scalar.sin x = Real.sin x := rfl

@[simp] theorem cos_eq : Scalar.cos x = Real.cos x := rfl

@[simp] theorem floor_eq : Scalar.floor x = ⌊x⌋ := rfl

@[simp] theorem ceilCount_eq : Scalar.ceilCount x = ⌈x⌉ := rfl

/-- The literals of the library are those of the real numbers; zero and one have instances of their
    own. -/
@[simp] theorem zero_eq : @OfNat.ofNat ℝ 0 Scalar.instOfNat = 0 := Int.cast_zero

@[simp] theorem one_eq : @OfNat.ofNat ℝ 1 Scalar.instOfNat = 1 := Int.cast_one

/-- A literal of the library with a decimal point. -/
@[simp] theorem ofScientific_eq (m e : ℕ) :
    @OfScientific.ofScientific ℝ Scalar.instOfScientific m true e = (m : ℝ) / 10 ^ e := rfl

/-- The tolerance below which lengths have no direction. -/
theorem trillionth_eq : @OfScientific.ofScientific ℝ Scalar.instOfScientific 1 true 12 = 1 / 10 ^ 12 := by
  rw [ofScientific_eq, Nat.cast_one]

theorem eq_iff : Scalar.eq a b = true ↔ a = b := by
  rw [Scalar.eq, Bool.and_eq_true_iff, le_iff, le_iff]
  exact ⟨fun h => le_antisymm h.1 h.2, fun h => ⟨h.le, h.ge⟩⟩

@[simp] theorem isNaN_eq : Scalar.isNaN x = false := by
  rw [Scalar.isNaN, Bool.not_eq_false', eq_iff]

@[simp] theorem isFinite_eq : Scalar.isFinite x = true := by
  rw [Scalar.isFinite, eq_iff]
  exact (sub_self x).trans zero_eq.symm

@[simp] theorem max_eq : Scalar.max a b = max a b := by
  simp only [Scalar.max, isNaN_eq, Bool.or_false, le_iff, max_def']

@[simp] theorem min_eq : Scalar.min a b = min a b := by
  simp only [Scalar.min, isNaN_eq, Bool.or_false, le_iff, min_def]

@[simp] theorem abs_eq : Scalar.abs x = |x| := by
  simp only [Scalar.abs, lt_iff, zero_eq]
  split_ifs with h
  · exact (abs_of_neg h).symm
  · exact (abs_of_nonneg (not_lt.mp h)).symm

/-- What is less than half a unit of the last place is rounded to nothing. -/
theorem roundScaled_eq_zero {n : ℕ} (hx : 0 ≤ x) (h : x * 10 ^ n < 1 / 2) : Scalar.roundScaled n x = 0 := by
  have hscaled : 0 ≤ x * 10 ^ n := by positivity
  have hfloor : ⌊x * 10 ^ n⌋ = 0 := Int.floor_eq_zero_iff.mpr ⟨hscaled, by linarith⟩
  have hround : roundEven (x * 10 ^ n) = 0 := by
    rw [roundEven, hfloor, Int.cast_zero, sub_zero, if_pos h]
  have hscale : ((Nat.pow 10 n : ℕ) : ℝ) = 10 ^ n := by simp
  show (roundEven (x * ((Nat.pow 10 n : ℕ) : ℤ)) : ℝ) / _ = 0
  rw [Int.cast_natCast, hscale, hround, Int.cast_zero, zero_div]

/-! ## Extrema of lists -/

theorem foldl_max_spec (xs : List ℝ) (a : ℝ) :
    a ≤ xs.foldl Scalar.max a ∧ ∀ y ∈ xs, y ≤ xs.foldl Scalar.max a := by
  induction xs generalizing a with
  | nil => exact ⟨le_rfl, fun y hy => absurd hy List.not_mem_nil⟩
  | cons b xs ih =>
    obtain ⟨h1, h2⟩ := ih (max a b)
    rw [List.foldl_cons, max_eq]
    refine ⟨(le_max_left a b).trans h1, fun y hy => ?_⟩
    rcases List.mem_cons.mp hy with rfl | hy
    · exact (le_max_right a y).trans h1
    · exact h2 y hy

theorem le_of_maximum {xs : List ℝ} {m : ℝ} (h : Scalar.maximum xs = some m) (hx : x ∈ xs) :
    x ≤ m := by
  cases xs with
  | nil => exact absurd hx List.not_mem_nil
  | cons y ys =>
    obtain rfl : ys.foldl Scalar.max y = m := Option.some.inj h
    rcases List.mem_cons.mp hx with rfl | hx
    · exact (foldl_max_spec ys x).1
    · exact (foldl_max_spec ys y).2 x hx

theorem maximum_le {xs : List ℝ} {m b : ℝ} (h : Scalar.maximum xs = some m) (hb : ∀ x ∈ xs, x ≤ b) : m ≤ b := by
  cases xs with
  | nil => cases h
  | cons x xs =>
    obtain ⟨hx, hxs⟩ := List.forall_mem_cons.mp hb
    obtain rfl : xs.foldl Scalar.max x = m := Option.some.inj h
    exact List.foldlRecOn xs Scalar.max (motive := (· ≤ b)) hx fun a ha y hy => max_eq.trans_le (max_le ha (hxs y hy))

theorem foldl_min_spec (xs : List ℝ) (a : ℝ) :
    xs.foldl Scalar.min a ∈ a :: xs ∧ ∀ y ∈ a :: xs, xs.foldl Scalar.min a ≤ y := by
  induction xs generalizing a with
  | nil => simp
  | cons b xs ih =>
    obtain ⟨hmem, hle⟩ := ih (min a b)
    rw [List.foldl_cons, min_eq]
    have hmin := hle _ List.mem_cons_self
    refine ⟨?_, fun y hy => ?_⟩
    · rcases List.mem_cons.mp hmem with h | h
      · rw [h]
        rcases min_choice a b with h | h <;> simp [h]
      · exact List.mem_cons_of_mem _ (List.mem_cons_of_mem _ h)
    · rcases List.mem_cons.mp hy with rfl | hy
      · exact hmin.trans (min_le_left _ _)
      · rcases List.mem_cons.mp hy with rfl | hy
        · exact hmin.trans (min_le_right _ _)
        · exact hle y (List.mem_cons_of_mem _ hy)

/-- The least of a list is the one of its members that is below all of them. -/
theorem minimum_eq_some_iff {xs : List ℝ} {m : ℝ} :
    Scalar.minimum xs = some m ↔ m ∈ xs ∧ ∀ x ∈ xs, m ≤ x := by
  cases xs with
  | nil => simp
  | cons x xs =>
    obtain ⟨hmem, hle⟩ := foldl_min_spec xs x
    show some (xs.foldl Scalar.min x) = some m ↔ _
    rw [Option.some.injEq]
    constructor
    · rintro rfl
      exact ⟨hmem, hle⟩
    · rintro ⟨hm, hbelow⟩
      exact le_antisymm (hle m hm) (hbelow _ hmem)

/-- Only what is in a list matters for its least member. -/
theorem minimum_congr {xs ys : List ℝ} (h : ∀ x, x ∈ xs ↔ x ∈ ys) : Scalar.minimum xs = Scalar.minimum ys := by
  ext m
  simp only [minimum_eq_some_iff, h]

theorem exists_minimum {xs : List ℝ} (h : xs ≠ []) : ∃ m, Scalar.minimum xs = some m := by
  cases xs with
  | nil => exact absurd rfl h
  | cons x xs => exact ⟨_, rfl⟩

end Exact

instance : LawfulScalar ℝ where
  le_trans h h' := Exact.le_iff.mpr ((Exact.le_iff.mp h).trans (Exact.le_iff.mp h'))
  le_self_of_le _ := ⟨Exact.le_iff.mpr le_rfl, Exact.le_iff.mpr le_rfl⟩
  le_total {a b} _ _ := (le_total a b).imp Exact.le_iff.mpr Exact.le_iff.mpr
  lt_iff := by
    intro a b
    rw [← Bool.not_eq_true, Exact.lt_iff, Exact.le_iff, Exact.le_iff]
    exact lt_iff_le_not_ge
  whole?_congr h h' := by rw [le_antisymm (Exact.le_iff.mp h) (Exact.le_iff.mp h')]

end Clearance
