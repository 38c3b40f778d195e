/-
**Numerals in a radix.**

An integer is written as a sign and the digits of its magnitude, most significant digit first, in
a radix between two and thirty-six.  Digits above nine are the small letters.  Reading a numeral
back folds the digits from the left.

Main definitions:

* `ValueLens.Numeral.digits` — the digits of a natural number, most significant first;
* `ValueLens.Numeral.ofDigits` — the number a digit list stands for;
* `ValueLens.Numeral.write`, `ValueLens.Numeral.writeInt` — the text of a number, where a radix out
  of range acts as the nearest bound;
* `ValueLens.Numeral.read?` — reading a text back.
-/

set_option relaxedAutoImplicit false
set_option autoImplicit false

namespace ValueLens.Numeral

/-! ### Digits -/

/-- The loop behind `digits`: at most `fuel + 1` digits are produced. -/
def digitsFrom (radix : Nat) : Nat → Nat → List Nat
  | 0, n => [n]
  | fuel + 1, n =>
      if n < radix then [n] else digitsFrom radix fuel (n / radix) ++ [n % radix]

/-- The digits of `n`, most significant first, for a radix of at least two.  Zero has the one digit
zero.  A number has no more digits than its own value, which bounds the loop. -/
def digits (radix n : Nat) : List Nat :=
  digitsFrom radix n n

/-- The number that a list of digits stands for, most significant digit first. -/
def ofDigits (radix : Nat) (ds : List Nat) : Nat :=
  ds.foldl (fun n d => n * radix + d) 0

/-- How many digits `n` has in the decimal system. -/
def decimalLength (n : Nat) : Nat :=
  (digits 10 n).length

/-! ### Digit characters -/

/-- The character of a digit below thirty-six: `0` to `9`, then `a` to `z`. -/
def digitChar (d : Nat) : Char :=
  if d < 10 then Char.ofNat ('0'.toNat + d) else Char.ofNat ('a'.toNat + (d - 10))

/-- The digit that a character stands for, letters in either case. -/
def digitValue? (c : Char) : Option Nat :=
  if '0' ≤ c ∧ c ≤ '9' then some (c.toNat - '0'.toNat)
  else if 'a' ≤ c ∧ c ≤ 'z' then some (c.toNat - 'a'.toNat + 10)
  else if 'A' ≤ c ∧ c ≤ 'Z' then some (c.toNat - 'A'.toNat + 10)
  else none

/-! ### Writing and reading -/

/-- A radix below two acts as two and one above thirty-six as thirty-six. -/
def clampRadix (radix : Nat) : Nat :=
  max 2 (min radix 36)

/-- The characters of `n` in a radix that is clamped first. -/
def writeChars (radix n : Nat) : List Char :=
  (digits (clampRadix radix) n).map digitChar

/-- **The numeral of a natural number.** -/
def write (radix n : Nat) : String :=
  String.ofList (writeChars radix n)

/-- **The numeral of an integer**: a minus sign for a negative number, then its magnitude. -/
def writeInt (radix : Nat) (z : Int) : String :=
  if z < 0 then "-" ++ write radix z.natAbs else write radix z.natAbs

/-- The decimal numeral of a natural number. -/
def decimal (n : Nat) : String :=
  write 10 n

/-- Reads digits below the radix; an empty list or a foreign character gives nothing. -/
def read? (radix : Nat) (cs : List Char) : Option Nat :=
  if cs.isEmpty then none
  else do
    let ds ← cs.mapM digitValue?
    if ds.all (· < radix) then some (ofDigits radix ds) else none

/-- Capital letters for the digits above nine. -/
def upper (s : String) : String :=
  s.map Char.toUpper

/-- The numeral with zeros in front until it has `width` characters. -/
def zeroPadded (width radix n : Nat) : String :=
  let cs := writeChars radix n
  String.ofList (List.replicate (width - cs.length) '0' ++ cs)

end ValueLens.Numeral
