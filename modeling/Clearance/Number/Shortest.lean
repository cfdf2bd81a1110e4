import Clearance.Number.Binary64

/-!
# Decimal texts of numbers

Three ways of writing a binary64 number in decimal.

* `Decimal.shortest`: of the decimals that read back as the same number, one with the fewest digits,
  and of those the nearest. `Decimal.text` writes it out: positional from `1e-4` up to `1e16`, and
  with an exponent of at least two digits beyond.
* `Decimal.fixed`: the number rounded exactly to a given count of places.
* `Decimal.withDigits`: the number rounded exactly to a given count of significant digits.
-/

namespace Clearance.Decimal

/-- The decimal `digits * 10 ^ exponent`. -/
structure Scientific where
  digits : Nat
  exponent : Int
  deriving Repr, DecidableEq

/-! ## The shortest decimal -/

/-- A power of ten as numerator and denominator. -/
def powerOfTen (exponent : Int) : Nat × Nat :=
  if 0 ≤ exponent then (Nat.pow 10 exponent.toNat, 1) else (1, Nat.pow 10 (-exponent).toNat)

/-- The decimal exponent of the leading digit of a positive quotient. -/
def leadingExponent (num den : Nat) : Int :=
  if den ≤ num then ((Nat.toDigits 10 (num / den)).length : Int) - 1
  else -((Nat.toDigits 10 ((den - 1) / num)).length : Int)

/-- The numbers that round to `m * 2 ^ e` lie between `lower * 2 ^ (e - 2)` and `(4 * m + 2) * 2 ^
    (e - 2)`. Below a power of two the neighbour is nearer. -/
def lowerQuarter (m : Nat) (e : Int) : Nat :=
  if m == Nat.pow 2 52 && e > -1074 then 4 * m - 1 else 4 * m - 2

/-- On the grid of the multiples of `10 ^ g`, the one nearest to `m * 2 ^ e` that reads back as it.
    Only the two neighbours of the number can be the nearest. -/
def gridDigits? (m : Nat) (e g : Int) : Option Nat :=
  let (a, b) := Binary64.ratio 1 (e - 2)
  let (p, q) := powerOfTen g
  let unit := p * b
  let value := 4 * m * a * q
  let lower := lowerQuarter m e * a * q
  let upper := (4 * m + 2) * a * q
  let readsBack (c : Nat) : Bool :=
    if m % 2 == 0 then lower ≤ c * unit && c * unit ≤ upper else lower < c * unit && c * unit < upper
  let c := value / unit
  let below := value - c * unit
  let above := (c + 1) * unit - value
  match readsBack c, readsBack (c + 1) with
  | true, true => if below < above || (below == above && c % 2 == 0) then some c else some (c + 1)
  | true, false => some c
  | false, true => some (c + 1)
  | false, false => none

/-- The decimal with the fewest digits that reads back as `m * 2 ^ e`; seventeen digits always
    suffice. -/
def shortest (m : Nat) (e : Int) : Scientific :=
  if m == 0 then ⟨0, 0⟩
  else
    let (num, den) := Binary64.ratio m e
    let lead := leadingExponent num den
    let found := (List.range 17).findSome? fun (n : Nat) =>
      let g := lead - (n : Int)
      (gridDigits? m e g).map fun c => (⟨c, g⟩ : Scientific)
    found.getD ⟨0, 0⟩

/-! ## Writing a decimal -/

/-- The digits of a decimal without the zeros at its end, and the decimal exponent of the first of
    them. -/
def Scientific.significant (s : Scientific) : List Char × Int :=
  let all := Nat.toDigits 10 s.digits
  let kept := (all.reverse.dropWhile (· == '0')).reverse
  (if kept.isEmpty then ['0'] else kept, s.exponent + (all.length : Int) - 1)

/-- Positional writing, with a digit on each side of the point. -/
def positional (digits : List Char) (lead : Int) : String :=
  if lead < 0 then
    "0." ++ String.ofList (List.replicate (-lead - 1).toNat '0' ++ digits)
  else
    let whole := lead.toNat + 1
    let padded := digits ++ List.replicate (whole - digits.length) '0'
    let rest := padded.drop whole
    String.ofList (padded.take whole) ++ "." ++ String.ofList (if rest.isEmpty then ['0'] else rest)

/-- The exponent with its sign and at least two digits. -/
def exponentText (lead : Int) : String :=
  let digits := Nat.toDigits 10 lead.natAbs
  (if lead < 0 then "e-" else "e+") ++ String.ofList (List.replicate (2 - digits.length) '0' ++ digits)

/-- Writing with one digit before the point, and no point before nothing. -/
def withExponent (digits : List Char) (lead : Int) : String :=
  match digits with
  | [] => ""
  | [d] => String.singleton d ++ exponentText lead
  | d :: rest => String.singleton d ++ "." ++ String.ofList rest ++ exponentText lead

/-- The shortest text that reads back as the number. -/
def text (x : Float) : String :=
  match Binary64.parts x with
  | .notANumber => "nan"
  | .infinite negative => if negative then "-inf" else "inf"
  | .finite negative m e =>
    let (digits, lead) := (shortest m e).significant
    let body := if -4 ≤ lead && lead < 16 then positional digits lead else withExponent digits lead
    if negative then "-" ++ body else body

/-! ## A fixed count of places -/

/-- The digits of `units / 10 ^ places`, with a point if there are places. -/
def placed (units places : Nat) : String :=
  let digits := Nat.toDigits 10 units
  let padded := List.replicate (places + 1 - digits.length) '0' ++ digits
  let whole := padded.length - places
  let rest := padded.drop whole
  String.ofList (padded.take whole) ++ (if rest.isEmpty then "" else "." ++ String.ofList rest)

/-- The digits of `units / 10 ^ places` without the zeros at their end. -/
def trimmed (units places : Nat) : String :=
  if units % Nat.pow 10 places == 0 then placed (units / Nat.pow 10 places) 0
  else String.ofList ((placed units places).toList.reverse.dropWhile (· == '0')).reverse

/-- The number rounded to a count of places, a half going to the even neighbour; a negative number
    keeps its sign even if it is rounded to zero. -/
def fixed (places : Nat) (x : Float) : String :=
  match Binary64.parts x with
  | .notANumber => "nan"
  | .infinite negative => if negative then "-inf" else "inf"
  | .finite negative m e =>
    let (num, den) := Binary64.ratio m e
    let body := placed (Binary64.divEven (num * Nat.pow 10 places) den) places
    if negative then "-" ++ body else body

/-! ## A fixed count of digits -/

/-- A finite number rounded to a count of significant digits, a half going to the even neighbour,
    with an exponent. -/
def withDigits (count : Nat) (x : Float) : String :=
  match Binary64.parts x with
  | .finite negative m e =>
    let (num, den) := Binary64.ratio m e
    let lead := leadingExponent num den
    let (p, q) := powerOfTen ((count : Int) - 1 - lead)
    let rounded := Binary64.divEven (num * p) (den * q)
    let (digits, lead) := if Nat.pow 10 count ≤ rounded then (rounded / 10, lead + 1) else (rounded, lead)
    (if negative then "-" else "") ++ withExponent (Nat.toDigits 10 digits) lead
  | _ => text x

end Clearance.Decimal
