/-
**What plain scalars mean.**

A scalar without marks may spell null, a truth value, an integer in one of four radixes or a
floating point number.  Everything else is a text, also digits after a leading zero and numbers
too large for a double.  An integer that needs more than sixty-four bits, but not more than one
hundred and twenty-eight, is refused.

Main definitions:

* `ValueLens.Yaml.isNull`, `ValueLens.Yaml.bool?`, `ValueLens.Yaml.unsigned?`,
  `ValueLens.Yaml.integer?`, `ValueLens.Yaml.float?` — the spellings;
* `ValueLens.Yaml.Meaning` — what a plain scalar means;
* `ValueLens.Yaml.Meaning.ofText?` — the meaning of a text.
-/
import ValueLens.Decimal.Reading
import ValueLens.Number

set_option relaxedAutoImplicit false
set_option autoImplicit false

namespace ValueLens.Yaml

/-! ### Spellings -/

/-- The spellings of null, without the empty one. -/
def isNull (s : String) : Bool :=
  s == "null" || s == "Null" || s == "NULL" || s == "~"

/-- The spellings of truth values. -/
def bool? (s : String) : Option Bool :=
  if s == "true" || s == "True" || s == "TRUE" then some true
  else if s == "false" || s == "False" || s == "FALSE" then some false
  else none

/-- Digits after a leading zero, with a sign or not. -/
def isZeroPadded (cs : List Char) : Bool :=
  let digits :=
    match cs with
    | '-' :: rest => rest
    | '+' :: rest => rest
    | _ => cs
  match digits with
  | '0' :: d :: rest => (d :: rest).all Char.isDigit
  | _ => false

/-- The magnitude of an integer: decimal, or after the mark of another radix. -/
def magnitude? : List Char → Option Nat
  | '0' :: 'x' :: rest => Numeral.read? 16 rest
  | '0' :: 'o' :: rest => Numeral.read? 8 rest
  | '0' :: 'b' :: rest => Numeral.read? 2 rest
  | cs => if isZeroPadded cs then none else Numeral.read? 10 cs

/-- **An unsigned integer**, with a plus sign or none. -/
def unsigned? (s : String) : Option Nat :=
  match s.toList with
  | '+' :: rest => magnitude? rest
  | cs => magnitude? cs

/-- **An integer.** -/
def integer? (s : String) : Option Int :=
  match s.toList with
  | '-' :: rest => (magnitude? rest).map fun n => -(n : Int)
  | _ => (unsigned? s).map fun n => (n : Int)

/-- The spellings of infinity. -/
def isInfinity (cs : List Char) : Bool :=
  cs == ".inf".toList || cs == ".Inf".toList || cs == ".INF".toList

/-- **A floating point number.**  Infinities and NaN have spellings of their own, and a decimal must
be finite. -/
def float? (s : String) : Option Double :=
  let finite (text : List Char) : Option Double :=
    (Binary.read? .double (String.ofList text)).filter Binary.isFinite
  match s.toList with
  | '+' :: rest =>
      match rest with
      | '+' :: _ => none
      | '-' :: _ => none
      | _ => if isInfinity rest then some (.infinity .double false) else finite rest
  | '-' :: rest =>
      if isInfinity rest then some (.infinity .double true) else finite ('-' :: rest)
  | cs =>
      if isInfinity cs then some (.infinity .double false)
      else if s == ".nan" || s == ".NaN" || s == ".NAN" then some (.nan .double false)
      else finite cs

/-! ### Meanings -/

/-- **What a plain scalar means.** -/
inductive Meaning where
  | null
  | bool (value : Bool)
  | number (value : Number)
  | text (value : String)
  deriving DecidableEq, Repr

/-- Whether an integer fits one hundred and twenty-eight bits. -/
def isWide (z : Int) : Bool :=
  -(Nat.pow 2 127 : Int) ≤ z && z < (Nat.pow 2 128 : Int)

/-- The meaning of an integer that is not too wide to be one. -/
def Meaning.ofInteger? (z : Int) : Option Meaning :=
  (Number.ofInt? z).map .number

/-- **The meaning of a text without marks.**  There is none for an integer that is refused. -/
def Meaning.ofText? (s : String) : Option Meaning :=
  if s.isEmpty || isNull s then some .null
  else
    match bool? s with
    | some b => some (.bool b)
    | none =>
        match (integer? s).filter isWide with
        | some z => Meaning.ofInteger? z
        | none =>
            if isZeroPadded s.toList then some (.text s)
            else
              match float? s with
              | some x => some (.number (.float x))
              | none => some (.text s)

end ValueLens.Yaml
