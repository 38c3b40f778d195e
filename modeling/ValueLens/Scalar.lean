/-
**Texts of terminal values.**

Truth values, integers, floating point and complex numbers and addresses are written the same way
in every kind of output.

A floating point number shows the fewest digits that read back at its width.  Positional notation
is used for decimal exponents from minus four to five, exponent notation with a sign and at least
two digits otherwise.

Main definitions:

* `ValueLens.Scalar.bool`, `ValueLens.Scalar.int`, `ValueLens.Scalar.uint` — truth values and
  integers;
* `ValueLens.Scalar.layout` — a decimal in the notation its exponent asks for;
* `ValueLens.Scalar.float`, `ValueLens.Scalar.complex` — floating point and complex numbers;
* `ValueLens.Scalar.address` — addresses.
-/
import ValueLens.Decimal.Shortest
import ValueLens.Shape

set_option relaxedAutoImplicit false
set_option autoImplicit false

namespace ValueLens.Scalar

/-- The words for truth values. -/
def bool (b : Bool) : String :=
  if b then "true" else "false"

/-- A signed integer in a radix. -/
def int (radix : Nat) (v : Int64) : String :=
  Numeral.writeInt radix v.toInt

/-- An unsigned integer in a radix. -/
def uint (radix : Nat) (v : UInt64) : String :=
  Numeral.write radix v.toNat

/-! ### Floating point numbers -/

/-- The exponents of positional notation: from this one on. -/
def leastPositional : Int := -4

/-- Exponents from this one on are written out. -/
def leastExponential : Int := 6

/-- The power of ten: a sign and at least two digits. -/
def exponentText (e : Int) : String :=
  (if e < 0 then "-" else "+") ++ Numeral.zeroPadded 2 10 e.natAbs

/-- A row of zeros. -/
def zeros (n : Nat) : String :=
  "".pushn '0' n

/-- Positional notation of a decimal whose exponent is small. -/
def positional (s : Scientific) : String :=
  if s.exponent < 0 then
    "0." ++ zeros (-s.exponent - 1).toNat ++ Scientific.digitText s.digits
  else
    let whole := s.exponent.toNat + 1
    if s.digits.length ≤ whole then
      Scientific.digitText s.digits ++ zeros (whole - s.digits.length)
    else
      Scientific.digitText (s.digits.take whole) ++ "." ++
        Scientific.digitText (s.digits.drop whole)

/-- **A decimal in the notation that its exponent asks for.** -/
def layout (s : Scientific) : String :=
  if s.exponent < leastPositional ∨ leastExponential ≤ s.exponent then
    s.mantissa ++ "e" ++ exponentText s.exponent
  else positional s

/-- The shortest digits of a datum.  An infinity has no digits at all. -/
def significant {f : Binary.Format} (x : Binary f) : Scientific :=
  if x.isFinite then x.shortest .up else ⟨[], 0⟩

/-- The digits of a value at its width. -/
def atWidth (x : Double) : FloatWidth → Scientific
  | .double => significant x
  | .single => significant x.narrow

/-- **A floating point number.**  Infinity and NaN are recognised before the value is rounded to
its width. -/
def float (x : Double) (width : FloatWidth) : String :=
  if x.isNaN then "NaN"
  else if x.isInfinite then (if x.negative then "-Inf" else "+Inf")
  else (if x.negative then "-" else "") ++ layout (atWidth x width)

/-- At least zero, as numbers compare: negative zero is, a NaN is not. -/
def atLeastZero (x : Double) : Bool :=
  !x.isNaN && (!x.negative || x.isZero)

/-- **A complex number** in parentheses: the imaginary part gets a plus sign if it is at least zero
and its text does not bring one. -/
def complex (re im : Double) (width : FloatWidth) : String :=
  let imaginary := float im width
  let sign := if atLeastZero im && !imaginary.startsWith "+" then "+" else ""
  "(" ++ float re width ++ sign ++ imaginary ++ "i)"

/-! ### Addresses -/

/-- **An address** in hexadecimal with at least `width` digits; address zero is nil. -/
def address (width : Nat) (a : Address) : String :=
  if a = 0 then "<nil>" else "0x" ++ Numeral.zeroPadded width 16 a.toNat

/-- An address in hexadecimal with no padding. -/
def bareAddress (a : Address) : String :=
  "0x" ++ Numeral.write 16 a.toNat

/-- How many digits a full address has. -/
def addressWidth : Nat := 16

end ValueLens.Scalar
