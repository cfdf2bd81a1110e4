import Clearance.Scalar
import Clearance.Number.Binary64

/-!
# Binary64 numbers as scalars

The reading of the library that a program runs: arithmetic on binary64 numbers, each operation
rounded.
-/

namespace Clearance

/-- The ratio of a circle's circumference to its diameter, rounded to binary64. -/
def Binary64.pi : Float := 3.141592653589793

instance : Scalar Float where
  ofInt := Float.ofInt
  ofDecimal := Float.ofScientific
  le a b := decide (a ≤ b)
  lt a b := decide (a < b)
  sqrt := Float.sqrt
  sin := Float.sin
  cos := Float.cos
  acos := Float.acos
  pow := Float.pow
  pi := Binary64.pi
  floor := Binary64.floor
  ceilCount := Binary64.ceilCount
  rint := Binary64.rint
  whole? := Binary64.whole?
  roundPlaces := Binary64.roundPlaces
  bits := Float.toBits

end Clearance
