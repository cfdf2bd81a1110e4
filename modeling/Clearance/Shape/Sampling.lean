import Clearance.Error
import Clearance.Geometry.Vec3

/-!
# Even samples of a length

How many samples a length needs at a given spacing, and where they stand.

* `Sampling.count`: enough samples, ends included, for gaps of at most the spacing.
* `Sampling.atLeast`: the least count that is not below a quotient.
* `Sampling.closed`, `Sampling.cyclic`: evenly spaced samples with and without the far end.
-/

namespace Clearance.Sampling

variable {α : Type} [Scalar α]

/-- The least integer that is not below a scalar; a scalar that is not finite has none. -/
def ceilInt (x : α) : Except Fault Int :=
  if Scalar.isNaN x then .error .value
  else if Scalar.isFinite x then .ok (Scalar.ceil x)
  else .error .overflow

/-- The least count that is at least `floor` and not below a quotient. -/
def atLeast (floor : Nat) (quotient : α) : Except Fault Nat :=
  (ceilInt quotient).map fun n => Nat.max floor n.toNat

/-- How many samples a length needs: one more than gaps, and at least the two ends
    (`_n_samples`). -/
def count (quotient : α) : Except Fault Nat :=
  (ceilInt quotient).map fun n => Nat.max 2 (n + 1).toNat

/-- A quotient of numbers for which a division by zero is an error. -/
def quotient (a b : α) : Except Fault α :=
  if Scalar.eq b 0 then .error .division else .ok (a / b)

/-- The square of a number; it is an error if it exceeds the numbers. -/
def square (x : α) : Except Fault α :=
  let y := x * x
  if Scalar.isFinite x && !(Scalar.isFinite y) then .error .overflow else .ok y

/-- The cube of a number; it is an error if it exceeds the numbers. -/
def cube (x : α) : Except Fault α :=
  let y := x * x * x
  if Scalar.isFinite x && !(Scalar.isFinite y) then .error .overflow else .ok y

/-- `n` evenly spaced numbers from `a` to `b`, both included. -/
def closed (a b : α) (n : Nat) : List α :=
  let step := (b - a) / Scalar.ofInt ((n : Int) - 1)
  (List.range n).map fun (i : Nat) => if i + 1 = n then b else a + Scalar.ofInt (i : Int) * step

/-- `n` evenly spaced numbers from `a` on, of which the next would be `b`. -/
def cyclic (a b : α) (n : Nat) : List α :=
  let step := (b - a) / Scalar.ofInt (n : Int)
  (List.range n).map fun (i : Nat) => a + Scalar.ofInt (i : Int) * step

@[simp] theorem length_closed (a b : α) (n : Nat) : (closed a b n).length = n := by simp [closed]

@[simp] theorem length_cyclic (a b : α) (n : Nat) : (cyclic a b n).length = n := by simp [cyclic]

end Clearance.Sampling
