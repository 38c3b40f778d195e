/-
**Reading a decimal as a floating point datum.**

A decimal is an optional sign, digits with an optional point among them, and an optional power of
ten.  There is at least one digit, on either side of the point.  The words for infinity and for not
a number are read in any case of letters.  The value is rounded correctly: to the nearest datum,
ties to even.

Main definitions:

* `ValueLens.DecimalText` — the parts of a decimal;
* `ValueLens.DecimalText.parse?` — the grammar;
* `ValueLens.DecimalText.value` — the nearest datum;
* `ValueLens.Binary.read?` — both, with infinities and NaN.
-/
import ValueLens.Decimal.Scientific

set_option relaxedAutoImplicit false
set_option autoImplicit false

namespace ValueLens

/-- The parts of a decimal: `digits` times ten to the `exponent`. -/
structure DecimalText where
  digits : Nat
  exponent : Int
  deriving DecidableEq, Repr

namespace DecimalText

/-- The leading digits of a text and the rest. -/
def spanDigits (cs : List Char) : List Char × List Char :=
  (cs.takeWhile Char.isDigit, cs.dropWhile Char.isDigit)

/-- The number of a list of digit characters; none counts as zero. -/
def number (cs : List Char) : Nat :=
  Numeral.ofDigits 10 (cs.map fun c => c.toNat - '0'.toNat)

/-- The exponent part: an optional sign and at least one digit, and nothing after. -/
def exponentPart? : List Char → Option Int
  | [] => none
  | c :: rest =>
      let (negative, cs) :=
        if c = '-' then (true, rest) else if c = '+' then (false, rest) else (false, c :: rest)
      let (ds, tail) := spanDigits cs
      if ds.isEmpty || !tail.isEmpty then none
      else some (if negative then -(number ds : Int) else number ds)

/-- **The grammar of unsigned decimals.** -/
def parse? (cs : List Char) : Option DecimalText :=
  let (whole, rest) := spanDigits cs
  let (places, rest) :=
    match rest with
    | '.' :: tail => spanDigits tail
    | _ => ([], rest)
  if whole.isEmpty && places.isEmpty then none
  else
    let digits := number (whole ++ places)
    let shift : Int := -(places.length : Int)
    match rest with
    | [] => some ⟨digits, shift⟩
    | c :: tail =>
        if c = 'e' ∨ c = 'E' then (exponentPart? tail).map fun e => ⟨digits, shift + e⟩
        else none

/-- No format reaches beyond ten to the plus or minus this. -/
def exponentCap : Int := 400

/-- **The nearest datum.**  A decimal far outside the range of the format is an infinity or a zero,
whatever its digits. -/
def value (f : Binary.Format) (negative : Bool) (d : DecimalText) : Binary f :=
  if d.digits = 0 then .ofField f negative 0
  else
    let top := d.exponent + (Numeral.decimalLength d.digits : Int)
    if top > exponentCap then .infinity f negative
    else if top < -exponentCap then .ofField f negative 0
    else
      .ofRatio f negative (d.digits * Scientific.tenNum d.exponent) (Scientific.tenDen d.exponent)

end DecimalText

/-- **Reads a signed decimal, an infinity or a NaN.** -/
def Binary.read? (f : Binary.Format) (s : String) : Option (Binary f) :=
  let (negative, cs) :=
    match s.toList with
    | '-' :: rest => (true, rest)
    | '+' :: rest => (false, rest)
    | cs => (false, cs)
  let word := String.ofList (cs.map Char.toLower)
  if word = "inf" ∨ word = "infinity" then some (.infinity f negative)
  else if word = "nan" then some (.nan f negative)
  else (DecimalText.parse? cs).map (·.value f negative)

end ValueLens
