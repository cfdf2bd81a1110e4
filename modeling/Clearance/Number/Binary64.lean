/-!
# The parts of a binary64 number

A binary64 number is not a number, infinite, or `± m * 2 ^ e` for a natural number `m`.
`Binary64.parts` reads this off the bits; `Binary64.ratio` writes a finite number as a quotient of
integers, on which exact rounding works.
-/

namespace Clearance.Binary64

/-- What the bits of a binary64 number say. -/
inductive Parts where
  | notANumber
  | infinite (negative : Bool)
  /-- The number `± significand * 2 ^ exponent`. -/
  | finite (negative : Bool) (significand : Nat) (exponent : Int)
  deriving Repr, DecidableEq

/-- Reads sign, exponent and significand off the bits. The leading bit of the significand is written
    only implicitly, except in the numbers nearest to zero. -/
def parts (x : Float) : Parts :=
  let bits : Nat := x.toBits.toNat
  let negative := bits / Nat.pow 2 63 == 1
  let field : Nat := bits / Nat.pow 2 52 % Nat.pow 2 11
  let fraction := bits % Nat.pow 2 52
  if field == 2047 then
    if fraction == 0 then .infinite negative else .notANumber
  else if field == 0 then .finite negative fraction (-1074)
  else .finite negative (Nat.pow 2 52 + fraction) ((field : Int) - 1075)

/-- A nonnegative number `m * 2 ^ e` as numerator and denominator. -/
def ratio (significand : Nat) (exponent : Int) : Nat × Nat :=
  if 0 ≤ exponent then (significand * Nat.pow 2 exponent.toNat, 1) else (significand, Nat.pow 2 (-exponent).toNat)

/-- A quotient rounded to the nearest natural number, a half going to the even neighbour. -/
def divEven (num den : Nat) : Nat :=
  let q := num / den
  let r := 2 * (num % den)
  if r < den || (r == den && q % 2 == 0) then q else q + 1

/-- The greatest integer that is not above a number; zero for one that is not finite. -/
def floor (x : Float) : Int :=
  if x.abs < 9e15 then x.floor.toInt64.toInt
  else match parts x with
    | .finite negative m e =>
      let (num, den) := ratio m e
      if negative then -((num + den - 1) / den : Nat) else (num / den : Nat)
    | _ => 0

/-- The least integer that is not below a number, as a machine word of 64 bits holds it; the least
    word for a number that has no such integer. -/
def ceilCount (x : Float) : Int :=
  let c := x.ceil
  if -9223372036854775808.0 ≤ c && c < 9223372036854775808.0 then c.toInt64.toInt else -9223372036854775808

/-- The nearest integer, a half going to the even neighbour. Far from zero every number is an
    integer. -/
def rint (x : Float) : Float :=
  if x.abs < 4503599627370496.0 then
    let low := x.floor
    let rest := x - low
    let nearest :=
      if rest < 0.5 then low
      else if rest > 0.5 then low + 1.0
      else if low / 2.0 == (low / 2.0).floor then low else low + 1.0
    if nearest == 0.0 && (x < 0.0 || (x == 0.0 && 1.0 / x < 0.0)) then -0.0 else nearest
  else x

/-- The integer that a number is equal to, if there is one. The sign of a zero does not matter. -/
def whole? (x : Float) : Option Int :=
  match x.toModel.unpack with
  | .zero _ => some 0
  | .finite sign m e _ =>
    let (num, den) := ratio m e
    if num % den = 0 then some (sign.apply (num / den : Nat)) else none
  | _ => none

/-- The binary64 number nearest to the decimal with this many places that is nearest to `x`. -/
def roundPlaces (places : Nat) (x : Float) : Float :=
  match parts x with
  | .finite negative m e =>
    let (num, den) := ratio m e
    let units := divEven (num * Nat.pow 10 places) den
    let y := Float.ofScientific units true places
    if negative then -y else y
  | _ => x

end Clearance.Binary64
