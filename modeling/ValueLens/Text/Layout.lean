/-
**Padding and flags of a formatted text.**

A format specification gives a fill character, an alignment, flags, a least width and a precision.
Plain text is cut to the precision and filled up to the width, on the right unless the alignment
says otherwise.  Numbers are filled on the left, and the zero flag puts zeros between the sign (and
the mark of the radix) and the digits.

Main definitions:

* `ValueLens.Layout` — the specification;
* `ValueLens.Layout.text` — plain text;
* `ValueLens.Layout.integral` — a sign, a mark of the radix and digits;
* `ValueLens.Layout.signed` — a sign and a text that is never cut;
* `ValueLens.Layout.exponential` — a number in exponent notation.
-/
import ValueLens.Decimal.Shortest

set_option relaxedAutoImplicit false
set_option autoImplicit false

namespace ValueLens

/-- Where the text stands within its width. -/
inductive Alignment where
  | left
  | center
  | right
  deriving DecidableEq, Repr

/-- **A format specification.** -/
structure Layout where
  fill : Char := ' '
  alignment : Option Alignment := none
  /-- Write the sign of numbers that are not negative. -/
  plus : Bool := false
  /-- Write the mark of the radix. -/
  alternate : Bool := false
  /-- Fill numbers with zeros behind the sign. -/
  zero : Bool := false
  width : Option Nat := none
  precision : Option Nat := none
  deriving DecidableEq, Repr

namespace Layout

/-- Puts `missing` fill characters around a text; an odd one goes to the right of centered text. -/
def surround (fill : Char) (alignment : Alignment) (missing : Nat) (s : String) : String :=
  let before :=
    match alignment with
    | .left => 0
    | .center => missing / 2
    | .right => missing
  "".pushn fill before ++ s ++ "".pushn fill (missing - before)

/-- Fills a text up to the width, with the alignment given or else `default`. -/
def fillUp (l : Layout) (default : Alignment) (s : String) : String :=
  match l.width with
  | none => s
  | some w => surround l.fill (l.alignment.getD default) (w - s.length) s

/-- **Plain text**: cut to the precision, then filled up on the right. -/
def text (l : Layout) (s : String) : String :=
  let cut :=
    match l.precision with
    | none => s
    | some p => String.ofList (s.toList.take p)
  l.fillUp .left cut

/-- **A sign and a text that stay together**, filled up on the left; the zero flag puts zeros
between the two. -/
def signed (l : Layout) (sign body : String) : String :=
  match l.zero, l.width with
  | true, some w => sign ++ surround '0' .right (w - sign.length - body.length) body
  | _, _ => l.fillUp .right (sign ++ body)

/-- The sign of a number under the plus flag. -/
def signOf (l : Layout) (negative : Bool) : String :=
  if negative then "-" else if l.plus then "+" else ""

/-- **An integer in some radix**: the mark of the radix is written under the alternate flag. -/
def integral (l : Layout) (negative : Bool) (mark digits : String) : String :=
  l.signed (l.signOf negative ++ if l.alternate then mark else "") digits

/-! ### Exponent notation -/

/-- The letter between the digits and the power of ten. -/
def exponentLetter (capital : Bool) : String :=
  if capital then "E" else "e"

/-- Digits, letter and power of ten. -/
def scientificText (capital : Bool) (s : Scientific) : String :=
  s.mantissa ++ exponentLetter capital ++ Numeral.writeInt 10 s.exponent

/-- **A floating point datum in exponent notation**: the shortest digits, or as many places as the
precision says.  Not a number has no sign. -/
def exponential {f : Binary.Format} (l : Layout) (capital : Bool) (x : Binary f) : String :=
  if x.isNaN then l.signed "" "NaN"
  else if x.isInfinite then l.signed (l.signOf x.negative) "inf"
  else
    let s :=
      match l.precision with
      | none => x.shortest .up
      | some p => Scientific.rounded x.magnitude (Nat.pow 2 f.unitShift) p
    l.signed (l.signOf x.negative) (scientificText capital s)

/-- **An integer in exponent notation**: all its significant digits, or as many places as the
precision says. -/
def exponentialInt (l : Layout) (capital : Bool) (z : Int) : String :=
  let s :=
    match l.precision with
    | none => Scientific.ofNat z.natAbs
    | some p => Scientific.rounded z.natAbs 1 p
  l.signed (l.signOf (z < 0)) (scientificText capital s)

end Layout

end ValueLens
