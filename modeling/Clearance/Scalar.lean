/-!
# Scalars

The geometry of this library is written once, over a number system given by `Scalar`, and read
twice: at `Float` it is what a program runs, at the real numbers it is what a theorem is about. A
scalar has the arithmetic operations, the elementary functions the library needs, and Boolean
comparisons, so that a not-a-number, which every comparison refuses, is a value like any other.

* `Scalar.isNaN`, `Scalar.isFinite`: the two tests on exceptional values, said through the
  operations alone.
* `Scalar.max`, `Scalar.min`, `Scalar.clip`: extrema that hand on a not-a-number.
* `Scalar.sum`, `Scalar.maximum`, `Scalar.minimum`: folds of a list from the left.
-/

namespace Clearance

/-- A number system in which distances are computed. Nothing is assumed about its operations:
    `Float` has not-a-numbers and rounds, the real numbers do neither. -/
class Scalar (α : Type) extends Add α, Sub α, Mul α, Div α, Neg α where
  /-- The scalar nearest to an integer. -/
  ofInt : Int → α
  /-- The scalar nearest to `m * 10 ^ e`, or to `m / 10 ^ e` if the sign of the exponent is
      `true`. -/
  ofDecimal : Nat → Bool → Nat → α
  /-- The comparison `≤`; false if an operand is not a number. -/
  le : α → α → Bool
  /-- The comparison `<`; false if an operand is not a number. -/
  lt : α → α → Bool
  sqrt : α → α
  sin : α → α
  cos : α → α
  acos : α → α
  pow : α → α → α
  pi : α
  /-- The greatest integer that is not above a finite scalar. -/
  floor : α → Int
  /-- The least integer that is not below a scalar, as a count holds it. Where counts are machine
      words, a scalar without such an integer, or with one too long for the word, gives the least
      word. -/
  ceilCount : α → Int
  /-- The nearest integer as a scalar, a half going to the even neighbour. -/
  rint : α → α
  /-- The integer that a scalar is equal to, if there is one. -/
  whole? : α → Option Int
  /-- The scalar nearest to the nearest decimal with this many places, a half going to the even
      neighbour. -/
  roundPlaces : Nat → α → α
  /-- The word of 64 bits that stores a scalar. -/
  bits : α → UInt64

namespace Scalar

variable {α : Type} [Scalar α]

-- A number system that has literals of its own keeps them, hence the low priorities.
instance (priority := low) instOfNat {n : Nat} : OfNat α n := ⟨ofInt (n : Int)⟩

instance (priority := low) instOfScientific : OfScientific α := ⟨ofDecimal⟩

instance : Inhabited α := ⟨0⟩

/-! ## Tests -/

/-- Equality as a comparison: a not-a-number is equal to nothing, and the two zeros are equal. -/
@[inline] def eq (a b : α) : Bool := le a b && le b a

/-- A scalar is not a number if it is not even equal to itself. -/
@[inline] def isNaN (a : α) : Bool := !(eq a a)

/-- A scalar is finite if it cancels against itself. -/
@[inline] def isFinite (a : α) : Bool := eq (a - a) 0

/-- A scalar below every bound that no scalar of its kind exceeds: finite or negative. -/
@[inline] def isBelowTop (a : α) : Bool := isFinite a || lt a 0

/-! ## Extrema and roundings -/

@[inline] def abs (a : α) : α := if lt a 0 then -a else a

/-- The larger of two scalars, not a number if one of them is not. -/
@[inline] def max (a b : α) : α := if le b a || isNaN a then a else b

/-- The smaller of two scalars, not a number if one of them is not. -/
@[inline] def min (a b : α) : α := if le a b || isNaN a then a else b

/-- The scalar of the interval from `lo` to `hi` nearest to `a`. -/
@[inline] def clip (a lo hi : α) : α := min (max a lo) hi

/-- The least integer that is not below a finite scalar. -/
@[inline] def ceil (a : α) : Int := -(floor (-a))

/-- Rounding to a decimal place by scaling: multiply, round to an integer, divide. -/
def roundScaled (places : Nat) (a : α) : α :=
  let scale : α := ofInt (Nat.pow 10 places : Nat)
  rint (a * scale) / scale

/-! ## Folds -/

/-- The sum of a list from the left, starting at zero. -/
def sum (xs : List α) : α := xs.foldl (· + ·) 0

/-- The greatest of a list, not a number if one of its members is not; absent for the empty list. -/
def maximum : List α → Option α
  | [] => none
  | x :: xs => some (xs.foldl max x)

/-- The least of a list, not a number if one of its members is not; absent for the empty list. -/
def minimum : List α → Option α
  | [] => none
  | x :: xs => some (xs.foldl min x)

@[simp] theorem maximum_nil : maximum ([] : List α) = none := rfl

@[simp] theorem minimum_nil : minimum ([] : List α) = none := rfl

end Scalar

end Clearance
