/-
**Writing documents of objects and arrays.**

Every item and every member stands on a line of its own, indented by one tab for each container
around it.  A number is written with the fewest digits that read back: plainly if its exponent is
moderate, and with a signed power of ten otherwise.

Main definitions:

* `ValueLens.Json.quoted` — a text with its marks;
* `ValueLens.Json.floatText` — a double;
* `ValueLens.Json.Value.pretty` — a document.
-/
import ValueLens.Decimal.Shortest
import ValueLens.Json.Value

set_option relaxedAutoImplicit false
set_option autoImplicit false

namespace ValueLens.Json

/-! ### Texts -/

/-- The spelling of a character in a text: marks, backslashes and control characters are escaped. -/
def escape (c : Char) : List Char :=
  if c = '"' then ['\\', '"']
  else if c = '\\' then ['\\', '\\']
  else if c = '\x08' then ['\\', 'b']
  else if c = '\x0c' then ['\\', 'f']
  else if c = '\n' then ['\\', 'n']
  else if c = '\r' then ['\\', 'r']
  else if c = '\t' then ['\\', 't']
  else if c.toNat < 0x20 then ['\\', 'u'] ++ (Numeral.zeroPadded 4 16 c.toNat).toList
  else [c]

/-- **A text with its marks.** -/
def quoted (s : String) : String :=
  String.ofList (['"'] ++ s.toList.flatMap escape ++ ['"'])

/-! ### Numbers -/

/-- The smallest exponent that is written plainly. -/
def plainLow : Int := -5

/-- The largest exponent that is written plainly. -/
def plainHigh : Int := 15

/-- Digits with the point after the one that counts ones; at least one digit stands on each side. -/
def positional (s : Scientific) : String :=
  if s.exponent < 0 then
    "0." ++ String.ofList (List.replicate ((-s.exponent).toNat - 1) '0')
      ++ Scientific.digitText s.digits
  else
    let n := s.exponent.toNat + 1
    let whole := s.digits.take n ++ List.replicate (n - s.digits.length) 0
    let places := s.digits.drop n
    Scientific.digitText whole ++ "."
      ++ (if places.isEmpty then "0" else Scientific.digitText places)

/-- A power of ten with its sign. -/
def powerText (e : Int) : String :=
  "e" ++ (if e < 0 then "-" else "+") ++ Numeral.decimal e.natAbs

/-- **A double**; infinities and NaNs are null. -/
def floatText (x : Double) : String :=
  if x.isFinite then
    let s := x.shortest .even
    let body :=
      if plainLow ≤ s.exponent ∧ s.exponent ≤ plainHigh then positional s
      else s.mantissa ++ powerText s.exponent
    if x.negative then "-" ++ body else body
  else "null"

/-- A number. -/
def numberText : Number → String
  | .int v => Numeral.writeInt 10 v.toInt
  | .uint v => Numeral.decimal v.toNat
  | .float x => floatText x

/-! ### Documents -/

/-- A new line at a depth. -/
def newLine (depth : Nat) : String :=
  String.ofList ('\n' :: List.replicate depth '\t')

mutual

/-- A document inside `depth` containers. -/
def Value.prettyAt (depth : Nat) : Value → String
  | .null => "null"
  | .bool b => if b then "true" else "false"
  | .number n => numberText n
  | .text s => quoted s
  | .array [] => "[]"
  | .array items =>
      "[" ++ ",".intercalate (prettyItems (depth + 1) items) ++ newLine depth ++ "]"
  | .object [] => "\x7b\x7d"
  | .object members =>
      "\x7b" ++ ",".intercalate (prettyMembers (depth + 1) members) ++ newLine depth ++ "\x7d"

/-- The items of an array, each on its line. -/
def prettyItems (depth : Nat) : List Value → List String
  | [] => []
  | v :: rest => (newLine depth ++ v.prettyAt depth) :: prettyItems depth rest

/-- The members of an object, each on its line. -/
def prettyMembers (depth : Nat) : List (String × Value) → List String
  | [] => []
  | (name, v) :: rest =>
      (newLine depth ++ quoted name ++ ": " ++ v.prettyAt depth) :: prettyMembers depth rest

end

/-- **The text of a document.** -/
def Value.pretty (v : Value) : String :=
  v.prettyAt 0

end ValueLens.Json
