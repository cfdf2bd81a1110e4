import Clearance.Text.Printable

/-!
# Quoted texts

A text between quotation marks, as it stands inside a written list. Single quotes are used unless
the text has a single quote and no double quote; unprintable characters are written as escapes.

* `Text.quote`: the quoted form of a text.
* `Text.quotedList`: a list of quoted texts between brackets.
* `Text.tuple`: a tuple of texts that are already written.
* `Text.truth`, `Text.optional`: a truth value, and a name that may be missing.
-/

namespace Clearance.Text

/-- The last digits of a number in base sixteen, as many as asked for. -/
def hexDigits (width n : Nat) : String :=
  let digits := Nat.toDigits 16 n
  String.ofList (List.replicate (width - digits.length) '0' ++ digits)

/-- One character between the given quotation marks. -/
def escape (mark c : Char) : String :=
  if c == mark || c == '\\' then String.ofList ['\\', c]
  else if c == '\n' then "\\n"
  else if c == '\r' then "\\r"
  else if c == '\t' then "\\t"
  else if isPrintable c then String.singleton c
  else if c.toNat < 0x100 then "\\x" ++ hexDigits 2 c.toNat
  else if c.toNat < 0x10000 then "\\u" ++ hexDigits 4 c.toNat
  else "\\U" ++ hexDigits 8 c.toNat

/-- The quoted form of a text. -/
def quote (s : String) : String :=
  let mark := if s.contains '\'' && !s.contains '"' then '"' else '\''
  String.singleton mark ++ String.join (s.toList.map (escape mark)) ++ String.singleton mark

/-- Written items between brackets. -/
def bracketed (items : List String) : String := "[" ++ String.intercalate ", " items ++ "]"

/-- A list of texts, each quoted. -/
def quotedList (items : List String) : String := bracketed (items.map quote)

/-- Written items between parentheses; a single item is followed by a comma. -/
def tuple : List String → String
  | [item] => "(" ++ item ++ ",)"
  | items => "(" ++ String.intercalate ", " items ++ ")"

/-- A truth value. -/
def truth (b : Bool) : String := if b then "True" else "False"

/-- A name that may be missing. -/
def optional (name : Option String) : String := name.getD "None"

end Clearance.Text
