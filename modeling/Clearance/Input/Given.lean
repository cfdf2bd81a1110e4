import Clearance.Scalar

/-!
# Scalars as given

A parameter such as a resolution, a joint limit or a cap comes as a caller wrote it: an integer, a
number with a fraction, a truth value, or something that is not a number at all. Messages show it as
it was written, and what it is worth is decided where it is used.

* `Given.toScalar`: the scalar that a parameter stands for.
* `Given.compare?`: the scalar that a parameter is compared by; texts do not take part in
  comparisons.
* `Fault`: what can go wrong in an elementary operation.
-/

namespace Clearance

/-- The failures of elementary operations, which carry no text of their own. -/
inductive Fault where
  /-- A division by zero. -/
  | division
  /-- A result beyond the numbers. -/
  | overflow
  /-- A value that an operation does not take. -/
  | value
  /-- A value of a kind that an operation does not take. -/
  | kind
  /-- A key that a table does not have. -/
  | key
  /-- A position beyond the end. -/
  | index
  /-- A property that a value does not have. -/
  | attribute
  /-- A change of something immutable. -/
  | frozen
  /-- A module that does not exist. -/
  | missingModule
  deriving Repr, DecidableEq

/-- A scalar parameter as a caller wrote it. -/
inductive Given (α : Type) where
  | int (n : Int)
  | real (x : α)
  | bool (b : Bool)
  /-- A text, with the number it spells if it spells one. -/
  | text (s : String) (spelled : Option α)
  /-- Something that is neither a number nor a text. -/
  | other
  deriving Repr, DecidableEq

namespace Given

variable {α : Type} [Scalar α]

/-- An integer as a scalar; it can be too large to be one. -/
def ofIntScalar (n : Int) : Except Fault α :=
  let x : α := Scalar.ofInt n
  if Scalar.isFinite x then .ok x else .error .overflow

/-- The scalar that a parameter stands for. A text stands for the number it spells. -/
def toScalar : Given α → Except Fault α
  | .int n => ofIntScalar n
  | .real x => .ok x
  | .bool b => .ok (if b then 1 else 0)
  | .text _ (some x) => .ok x
  | .text _ none => .error .value
  | .other => .error .kind

/-- The scalar that a parameter is compared by and computed with. -/
def compare? : Given α → Except Fault α
  | .text _ _ => .error .kind
  | g => g.toScalar

/-- The integer that a parameter other than a number with a fraction stands for. -/
def int? : Given α → Option Int
  | .int n => some n
  | .bool b => some (if b then 1 else 0)
  | _ => none

/-- Whether a scalar is exactly an integer. Not every integer is a scalar, so the integer is not
    converted. -/
def equalsInt (x : α) (n : Int) : Bool := Scalar.whole? x == some n && Scalar.eq x (Scalar.ofInt n)

/-- Whether two parameters are the same key: numbers by value however they are written, texts by
    letter. A parameter that is not a number is handed on as it is, so it is the same as itself. -/
def same : Given α → Given α → Bool
  | .text s _, .text t _ => s == t
  | .real x, .real y => Scalar.eq x y || (Scalar.isNaN x && Scalar.isNaN y)
  | .real x, b => b.int?.any (equalsInt x)
  | a, .real y => a.int?.any (equalsInt y)
  | a, b =>
    match a.int?, b.int? with
    | some m, some n => m == n
    | _, _ => false

end Given

end Clearance
