/-
**Binary floating point data.**

A datum is a sign and a *field*: the exponent and the fraction of the interchange format read as
one number.  The order of the fields is the order of the magnitudes, infinity is one particular
field, and every field above it is a NaN.  A finite magnitude is a natural multiple of the smallest
subnormal number, so rounding a quotient to the format is exact arithmetic on naturals.

Main definitions:

* `ValueLens.Binary.Format` — precision and exponent width, with `single` and `double`;
* `ValueLens.Binary` — a datum of a format;
* `ValueLens.Binary.ofRatio` — the datum nearest to a quotient, ties to the even significand;
* `ValueLens.Binary.mul`, `ValueLens.Binary.div` — rounded products and quotients;
* `ValueLens.Binary.narrow`, `ValueLens.Binary.widen` — from double to single and back;
* `ValueLens.Binary.totalOrder` — the total order in which negative zero lies below zero and the
  NaNs lie outside the infinities.
-/

set_option relaxedAutoImplicit false
set_option autoImplicit false

namespace ValueLens

/-! ### Formats -/

/-- A binary interchange format: `precision` counts the leading bit. -/
structure Binary.Format where
  precision : Nat
  exponentBits : Nat
  deriving DecidableEq, Repr

namespace Binary.Format

/-- Thirty-two bits. -/
def single : Format := ⟨24, 8⟩

/-- Sixty-four bits. -/
def double : Format := ⟨53, 11⟩

/-- How many bits the fraction takes. -/
def fractionBits (f : Format) : Nat := f.precision - 1

/-- The number of fields, NaNs included. -/
def fieldCount (f : Format) : Nat := Nat.pow 2 (f.fractionBits + f.exponentBits)

/-- There are fields. -/
theorem fieldCount_pos (f : Format) : 0 < f.fieldCount :=
  Nat.pow_pos (by decide)

/-- The field of infinity: the largest exponent and no fraction. -/
def infinityField (f : Format) : Nat := (Nat.pow 2 f.exponentBits - 1) * Nat.pow 2 f.fractionBits

/-- The smallest subnormal number is two to the minus this. -/
def unitShift (f : Format) : Nat := Nat.pow 2 (f.exponentBits - 1) + f.precision - 3

end Binary.Format

/-- How wide a floating point value is. -/
inductive FloatWidth where
  | single
  | double
  deriving DecidableEq, Repr

/-- The width in bits. -/
def FloatWidth.bits : FloatWidth → Nat
  | .single => 32
  | .double => 64

/-- **A floating point datum**: its sign and its exponent and fraction as one number. -/
structure Binary (f : Binary.Format) where
  negative : Bool
  field : Fin f.fieldCount
  deriving DecidableEq, Repr

/-- A double, the carrier of all floating point values. -/
abbrev Double := Binary Binary.Format.double

namespace Binary

variable {f : Format}

/-- The datum of a field, which is reduced to the range of fields. -/
def ofField (f : Format) (negative : Bool) (field : Nat) : Binary f :=
  ⟨negative, field % f.fieldCount, Nat.mod_lt _ f.fieldCount_pos⟩

/-- The datum of a bit pattern, sign bit first. -/
def ofBits (f : Format) (bits : Nat) : Binary f :=
  ofField f (bits / f.fieldCount % 2 == 1) (bits % f.fieldCount)

/-- The bit pattern, sign bit first. -/
def toBits (x : Binary f) : Nat :=
  (if x.negative then f.fieldCount else 0) + x.field.val

/-! ### Classes -/

/-- Neither an infinity nor a NaN. -/
def isFinite (x : Binary f) : Bool := x.field.val < f.infinityField

def isInfinite (x : Binary f) : Bool := x.field.val == f.infinityField

def isNaN (x : Binary f) : Bool := f.infinityField < x.field.val

def isZero (x : Binary f) : Bool := x.field.val == 0

/-- The exponent part of the field. -/
def exponentField (x : Binary f) : Nat := x.field.val / Nat.pow 2 f.fractionBits

/-- The fraction part of the field. -/
def fraction (x : Binary f) : Nat := x.field.val % Nat.pow 2 f.fractionBits

/-- The significand of a finite datum, an integer. -/
def significand (x : Binary f) : Nat :=
  if x.exponentField = 0 then x.fraction else Nat.pow 2 f.fractionBits + x.fraction

/-- How far the significand is shifted above the smallest subnormal number. -/
def shift (x : Binary f) : Nat := x.exponentField - 1

/-- The magnitude of a finite datum in units of the smallest subnormal number. -/
def magnitude (x : Binary f) : Nat := x.significand * Nat.pow 2 x.shift

/-! ### Rounding -/

/-- The quotient rounded to the nearest integer, a half to the even one. -/
def roundDiv (num den : Nat) : Nat :=
  let q := num / den
  let r := num % den
  if 2 * r < den then q
  else if 2 * r > den then q + 1
  else if q % 2 = 0 then q else q + 1

/-- The field nearest to a quotient, ties to the even significand; what is too large becomes
infinity.  The quotient is first expressed in units of the smallest subnormal number, then as many
low bits are dropped as the precision demands. -/
def roundField (f : Format) (num den : Nat) : Nat :=
  let scaled := num * Nat.pow 2 f.unitShift
  let whole := scaled / den
  let drop := whole.log2 + 1 - f.precision
  min (drop * Nat.pow 2 f.fractionBits + roundDiv scaled (den * Nat.pow 2 drop)) f.infinityField

/-- **The datum nearest to the quotient `num / den`** with the given sign. -/
def ofRatio (f : Format) (negative : Bool) (num den : Nat) : Binary f :=
  ofField f negative (roundField f num den)

/-- The double nearest to an integer. -/
def ofInt (z : Int) : Double :=
  ofRatio .double (z < 0) z.natAbs 1

/-- The product of two finite data, rounded. -/
def mul (x y : Binary f) : Binary f :=
  ofRatio f (x.negative != y.negative) (x.magnitude * y.magnitude) (Nat.pow 2 (2 * f.unitShift))

/-- The quotient of two finite data, the second not zero, rounded. -/
def div (x y : Binary f) : Binary f :=
  ofRatio f (x.negative != y.negative) x.magnitude y.magnitude

/-- An infinity. -/
def infinity (f : Format) (negative : Bool) : Binary f :=
  ofField f negative f.infinityField

/-- The quiet NaN without payload. -/
def nan (f : Format) (negative : Bool) : Binary f :=
  ofField f negative (f.infinityField + Nat.pow 2 (f.fractionBits - 1))

/-- The single nearest to a double.  Infinities and NaNs keep their kind. -/
def narrow (x : Double) : Binary .single :=
  if x.isNaN then
    ofField .single x.negative
      (Format.single.infinityField + Nat.pow 2 22 ||| (x.fraction / Nat.pow 2 29))
  else if x.isInfinite then infinity .single x.negative
  else ofRatio .single x.negative x.magnitude (Nat.pow 2 Format.double.unitShift)

/-- The double with the value of a single. -/
def widen (x : Binary .single) : Double :=
  if x.isFinite then ofRatio .double x.negative x.magnitude (Nat.pow 2 Format.single.unitShift)
  else ofField .double x.negative (Format.double.infinityField + x.fraction * Nat.pow 2 29)

/-! ### Order -/

/-- The place of a datum in the total order. -/
def place (x : Binary f) : Int :=
  if x.negative then -(x.field.val : Int) - 1 else x.field.val

/-- Whether two data are numerically equal: the two zeros are, and a NaN equals every NaN. -/
def same (x y : Binary f) : Bool :=
  x == y || (x.isZero && y.isZero) || (x.isNaN && y.isNaN)

/-- **The total order of data**: by sign, then by field. -/
def totalOrder (x y : Binary f) : Ordering :=
  compare x.place y.place

/-- The integer part of a datum, toward zero; an infinity or NaN has none. -/
def truncate? (x : Double) : Option Int :=
  if x.isFinite then
    let n := x.magnitude / Nat.pow 2 Format.double.unitShift
    some (if x.negative then -(n : Int) else n)
  else none

end Binary

end ValueLens
