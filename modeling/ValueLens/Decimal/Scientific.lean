/-
**Decimal numbers in scientific form.**

A positive number is written as one digit, a point, further digits and a power of ten.  The digits
come either from rounding a quotient of naturals to a given number of places, or from a search for
the fewest digits that still name a floating point datum (`ValueLens.Decimal.Shortest`).

Main definitions:

* `ValueLens.Scientific` — digits and exponent;
* `ValueLens.Scientific.exponentOf` — the decimal exponent of a quotient;
* `ValueLens.Scientific.rounded` — a quotient rounded to a number of places, a half to even;
* `ValueLens.Scientific.ofNat` — a natural number with all its significant digits;
* `ValueLens.Scientific.mantissa` — the text of the digits, with a point after the first.
-/
import ValueLens.Numeral
import ValueLens.Binary

set_option relaxedAutoImplicit false
set_option autoImplicit false

namespace ValueLens

/-- **A decimal number**: the first digit stands before the point, and the whole is multiplied by
ten to the exponent. -/
structure Scientific where
  digits : List Nat
  exponent : Int
  deriving DecidableEq, Repr

namespace Scientific

/-- Zero has one digit. -/
def zero : Scientific := ⟨[0], 0⟩

/-! ### Powers of ten as quotients -/

/-- The numerator of ten to an integer power. -/
def tenNum (e : Int) : Nat := Nat.pow 10 e.toNat

/-- The denominator of ten to an integer power. -/
def tenDen (e : Int) : Nat := Nat.pow 10 (-e).toNat

/-- The decimal exponent of a positive quotient: the largest `e` with `10 ^ e ≤ num / den`. -/
def exponentOf (num den : Nat) : Int :=
  if den ≤ num then (Numeral.decimalLength (num / den) : Int) - 1
  else -(Numeral.decimalLength ((den + num - 1) / num - 1) : Int)

/-! ### Rounding to places -/

/-- Digits without the zeros at their end; at least one digit stays. -/
def trimZeros (ds : List Nat) : List Nat :=
  match (ds.reverse.dropWhile (· == 0)).reverse with
  | [] => [0]
  | kept => kept

/-- The number whose digits, as one natural number, are `n`, where the last of the `places` digits
after the point counts ten to the `unit`. -/
def ofUnits (n : Nat) (unit : Int) : Scientific :=
  let ds := Numeral.digits 10 n
  ⟨ds, unit + (ds.length : Int) - 1⟩

/-- **A quotient rounded to `places` digits after the point**, a half to the even digit.  If the
rounding carries into a new leading digit, the last zero is dropped. -/
def rounded (num den places : Nat) : Scientific :=
  if num = 0 then ⟨List.replicate (places + 1) 0, 0⟩
  else
    let unit := exponentOf num den - places
    let n := Binary.roundDiv (num * tenDen unit) (den * tenNum unit)
    let s := ofUnits n unit
    { s with digits := s.digits.take (places + 1) }

/-- A natural number with all its significant digits. -/
def ofNat (n : Nat) : Scientific :=
  let s := ofUnits n 0
  { s with digits := trimZeros s.digits }

/-! ### Text -/

/-- The characters of a digit list. -/
def digitText (ds : List Nat) : String :=
  String.ofList (ds.map Numeral.digitChar)

/-- The digits with a point after the first, if there are more. -/
def mantissa (s : Scientific) : String :=
  match s.digits with
  | [] => ""
  | [d] => digitText [d]
  | d :: rest => digitText [d] ++ "." ++ digitText rest

end Scientific

end ValueLens
