/-!
# Reading numbers from text

The text of a number may have blanks around it, a sign, a point, an exponent, single underscores
between digits, and the decimal digits of any script; the words for infinity and for not-a-number
are read in any case.

* `Reading.float?`: the number that a text spells.
* `Reading.int?`: the integer that a text of digits spells.
-/

namespace Clearance.Reading

/-! ## Characters -/

/-- The code points of the digit zero in the scripts that have decimal digits; the nine digits
    follow each. -/
def zeroDigits : List Nat :=
  [0x30, 0x660, 0x6f0, 0x7c0, 0x966, 0x9e6, 0xa66, 0xae6, 0xb66, 0xbe6, 0xc66, 0xce6, 0xd66, 0xde6, 0xe50,
   0xed0, 0xf20, 0x1040, 0x1090, 0x17e0, 0x1810, 0x1946, 0x19d0, 0x1a80, 0x1a90, 0x1b50, 0x1bb0, 0x1c40,
   0x1c50, 0xa620, 0xa8d0, 0xa900, 0xa9d0, 0xa9f0, 0xaa50, 0xabf0, 0xff10, 0x104a0, 0x10d30, 0x11066,
   0x110f0, 0x11136, 0x111d0, 0x112f0, 0x11450, 0x114d0, 0x11650, 0x116c0, 0x11730, 0x118e0, 0x11950,
   0x11c50, 0x11d50, 0x11da0, 0x11f50, 0x16a60, 0x16ac0, 0x16b50, 0x1d7ce, 0x1d7d8, 0x1d7e2, 0x1d7ec,
   0x1d7f6, 0x1e140, 0x1e2f0, 0x1e4f0, 0x1e950, 0x1fbf0]

/-- The value of a decimal digit of any script. -/
def digitValue? (c : Char) : Option Nat :=
  (zeroDigits.find? fun z => z ≤ c.toNat && c.toNat < z + 10).map (c.toNat - ·)

/-- The blanks that may stand around a number. -/
def isBlank (c : Char) : Bool :=
  let n := c.toNat
  (9 ≤ n && n ≤ 13) || n == 0x20 || n == 0x85 || n == 0xa0 || n == 0x1680 || (0x2000 ≤ n && n ≤ 0x200a) ||
    n == 0x2028 || n == 0x2029 || n == 0x202f || n == 0x205f || n == 0x3000

/-- A character of a number's text: a digit by its value, or any other character. -/
inductive Mark where
  | digit (value : Nat)
  | other (c : Char)
  deriving Repr, DecidableEq

def Mark.ofChar (c : Char) : Mark :=
  match digitValue? c with
  | some d => .digit d
  | none => .other c.toLower

def Mark.isDigit : Mark → Bool
  | .digit _ => true
  | .other _ => false

/-! ## Underscores -/

/-- Removes the underscores of a text in which each stands between two digits. -/
def dropUnderscores : List Mark → Option (List Mark)
  | [] => some []
  | .digit d :: .other '_' :: .digit d' :: rest =>
    (dropUnderscores (.digit d' :: rest)).map (.digit d :: ·)
  | m :: rest => if m == .other '_' then none else (dropUnderscores rest).map (m :: ·)

/-! ## The grammar of numbers -/

/-- The leading digits of a text as their values, and the text after them. -/
def leadingDigits : List Mark → List Nat × List Mark
  | .digit d :: rest =>
    let (ds, rest') := leadingDigits rest
    (d :: ds, rest')
  | rest => ([], rest)

/-- Splits a sign off a text; without one the sign is positive. -/
def sign : List Mark → Bool × List Mark
  | .other '-' :: rest => (true, rest)
  | .other '+' :: rest => (false, rest)
  | rest => (false, rest)

/-- The natural number with the given decimal digits. -/
def ofDigits (ds : List Nat) : Nat := ds.foldl (fun n d => 10 * n + d) 0

/-- The exponent at the end of a number's text: none, or a marked integer. -/
def exponent? : List Mark → Option Int
  | [] => some 0
  | .other 'e' :: rest =>
    let (negative, rest) := sign rest
    match leadingDigits rest with
    | (ds, []) => if ds.isEmpty then none else some (if negative then -(ofDigits ds : Int) else ofDigits ds)
    | _ => none
  | _ => none

/-- The number nearest to `m * 10 ^ e`. Beyond every finite number it is infinite, below the
    smallest it is zero. -/
def decimal (m : Nat) (e : Int) : Float :=
  let size := (Nat.toDigits 10 m).length
  if m == 0 then 0.0
  else if e + (size : Int) > 400 then 1.0 / 0.0
  else if e + (size : Int) < -400 then 0.0
  else if 0 ≤ e then Float.ofScientific m false e.toNat
  else Float.ofScientific m true (-e).toNat

/-- An unsigned number: digits with at most one point among or around them, then perhaps an
    exponent. -/
def unsigned? (marks : List Mark) : Option Float :=
  let (whole, rest) := leadingDigits marks
  let (places, rest) := match rest with
    | .other '.' :: rest => leadingDigits rest
    | rest => ([], rest)
  if whole.isEmpty && places.isEmpty then none
  else (exponent? rest).map fun e => decimal (ofDigits (whole ++ places)) (e - (places.length : Int))

/-- The word that a text spells if it has no digits. -/
def word (marks : List Mark) : String :=
  String.ofList (marks.filterMap fun | .other c => some c | .digit _ => none)

/-- The characters of a text without the blanks around it and the underscores between digits. -/
def marks? (s : String) : Option (List Mark) :=
  let trimmed := ((s.toList.dropWhile isBlank).reverse.dropWhile isBlank).reverse
  dropUnderscores (trimmed.map Mark.ofChar)

/-- The integer that a text spells: digits behind an optional sign. -/
def int? (s : String) : Option Int := do
  let (negative, body) := sign (← marks? s)
  match leadingDigits body with
  | (d :: ds, []) => return if negative then -(ofDigits (d :: ds) : Int) else ofDigits (d :: ds)
  | _ => none

/-- The number that a text spells. -/
def float? (s : String) : Option Float := do
  let (negative, body) := sign (← marks? s)
  let size ←
    if body.any Mark.isDigit then unsigned? body
    else match word body with
      | "inf" | "infinity" => some (1.0 / 0.0)
      | "nan" => some (0.0 / 0.0)
      | _ => none
  return if negative then -size else size

end Clearance.Reading
