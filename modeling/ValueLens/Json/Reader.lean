/-
**Reading documents of objects and arrays.**

The grammar is strict: one document, blanks around the tokens, no comma after the last item, no
needless zeros in front of a number.  A text may spell a character by one or two units of sixteen
bits, and two units must form a pair.  Containers nest to a limited depth.

A number without a fraction and an exponent that fits sixty-four bits is an integer, but minus zero
is not.  All other numbers are doubles.  Their digits are gathered in a significand of sixty-four
bits as long as they fit, and the significand is then scaled by a power of ten; both steps round.

Main definitions:

* `ValueLens.Json.textBody?` — the characters of a text up to the closing mark;
* `ValueLens.Json.scaled?` — a significand times a power of ten;
* `ValueLens.Json.number?` — a number at the front of a text;
* `ValueLens.Json.Value.read?` — a whole document.
-/
import ValueLens.Decimal.Reading
import ValueLens.Json.Value

set_option relaxedAutoImplicit false
set_option autoImplicit false

namespace ValueLens.Json

/-! ### Blanks and words -/

/-- The blanks between tokens. -/
def isBlank (c : Char) : Bool :=
  c == ' ' || c == '\n' || c == '\t' || c == '\r'

/-- The text after its leading blanks. -/
def skipBlanks (cs : List Char) : List Char :=
  cs.dropWhile isBlank

/-- The text after a word in front of it. -/
def afterWord? : List Char → List Char → Option (List Char)
  | [], cs => some cs
  | w :: word, c :: cs => if w = c then afterWord? word cs else none
  | _ :: _, [] => none

/-! ### Texts -/

/-- One piece of a text: a character, or a unit of sixteen bits spelled by its number. -/
inductive Piece where
  | char (c : Char)
  | unit (n : Nat)
  deriving DecidableEq, Repr

/-- The character of an escape that has a letter of its own. -/
def escaped? (c : Char) : Option Char :=
  match c with
  | '"' | '\\' | '/' => some c
  | 'b' => some '\x08'
  | 'f' => some '\x0c'
  | 'n' => some '\n'
  | 'r' => some '\r'
  | 't' => some '\t'
  | _ => none

/-- The pieces of a text up to the closing mark, and the rest.  Control characters must be
escaped. -/
def pieces? : List Char → Option (List Piece × List Char)
  | [] => none
  | '"' :: rest => some ([], rest)
  | '\\' :: 'u' :: a :: b :: c :: d :: rest => do
      let n ← Numeral.read? 16 [a, b, c, d]
      let (ps, tail) ← pieces? rest
      pure (.unit n :: ps, tail)
  | '\\' :: c :: rest => do
      let e ← escaped? c
      let (ps, tail) ← pieces? rest
      pure (.char e :: ps, tail)
  | c :: rest =>
      if c.toNat < 0x20 ∨ c = '\\' then none
      else do
        let (ps, tail) ← pieces? rest
        pure (.char c :: ps, tail)

/-- The first unit of a pair. -/
def isHighUnit (n : Nat) : Bool := 0xD800 ≤ n && n < 0xDC00

/-- The second unit of a pair. -/
def isLowUnit (n : Nat) : Bool := 0xDC00 ≤ n && n < 0xE000

/-- The character of a pair of units. -/
def ofPair (high low : Nat) : Char :=
  Char.ofNat (0x10000 + (high - 0xD800) * 0x400 + (low - 0xDC00))

/-- Joins units to characters; a unit that belongs to a pair must not stand alone. -/
def joined? : List Piece → Option (List Char)
  | [] => some []
  | .char c :: rest => (joined? rest).map (c :: ·)
  | .unit n :: rest =>
      if isLowUnit n then none
      else if isHighUnit n then
        match rest with
        | .unit m :: tail => if isLowUnit m then (joined? tail).map (ofPair n m :: ·) else none
        | _ => none
      else (joined? rest).map (Char.ofNat n :: ·)

/-- **The characters of a text up to the closing mark**, and the rest. -/
def textBody? (cs : List Char) : Option (String × List Char) := do
  let (ps, rest) ← pieces? cs
  let body ← joined? ps
  pure (String.ofList body, rest)

/-! ### Numbers -/

/-- The largest significand. -/
def significandMax : Nat := Nat.pow 2 64 - 1

/-- Appends digits to a significand as long as it stays in range.  The second number counts the
digits that were appended. -/
def absorb (significand : Nat) : List Nat → Nat × Nat
  | [] => (significand, 0)
  | d :: ds =>
      let next := significand * 10 + d
      if next ≤ significandMax then
        let (s, n) := absorb next ds
        (s, n + 1)
      else (significand, 0)

/-- Powers of ten up to this one are doubles. -/
def largestPower : Nat := 308

/-- The double nearest to a power of ten. -/
def powerOfTen (e : Nat) : Double :=
  .ofRatio .double false (Nat.pow 10 e) 1

/-- A datum scaled down by a power of ten, in steps of the largest power at hand. -/
def scaledDown (x : Double) (e : Nat) : Double :=
  if e ≤ largestPower then x.div (powerOfTen e)
  else if x.isZero then x
  else scaledDown (x.div (powerOfTen largestPower)) (e - largestPower)
termination_by e
decreasing_by simp only [largestPower] at *; omega

/-- **A significand times a power of ten.**  There is none if it would be infinite. -/
def scaled? (significand : Nat) (exponent : Int) : Option Double :=
  let x := Binary.ofInt significand
  if exponent < 0 then some (scaledDown x (-exponent).toNat)
  else if x.isZero then some x
  else if exponent.toNat ≤ largestPower then
    let y := x.mul (powerOfTen exponent.toNat)
    if y.isInfinite then none else some y
  else none

/-- The same datum with the other sign if asked for. -/
def signed (negative : Bool) (x : Double) : Double :=
  { x with negative := negative }

/-- The whole digits at the front: a zero stands alone. -/
def whole? (cs : List Char) : Option (List Char × List Char) :=
  match DecimalText.spanDigits cs with
  | ([], _) => none
  | ('0' :: _ :: _, _) => none
  | (ds, rest) => some (ds, rest)

/-- The digits after a point, if there is one; then there is at least one digit. -/
def places? : List Char → Option (List Char × List Char)
  | '.' :: cs =>
      match DecimalText.spanDigits cs with
      | ([], _) => none
      | (ds, rest) => some (ds, rest)
  | cs => some ([], cs)

/-- The power of ten after its mark, if there is one; then there is at least one digit. -/
def power? : List Char → Option (Option Int × List Char)
  | [] => some (none, [])
  | c :: cs =>
      if c = 'e' ∨ c = 'E' then
        let (negative, cs) :=
          match cs with
          | '+' :: cs => (false, cs)
          | '-' :: cs => (true, cs)
          | cs => (false, cs)
        match DecimalText.spanDigits cs with
        | ([], _) => none
        | (ds, rest) =>
            let n : Int := DecimalText.number ds
            some (some (if negative then -n else n), rest)
      else some (none, c :: cs)

/-- The digits as numbers. -/
def digitsOf (cs : List Char) : List Nat :=
  cs.filterMap Numeral.digitValue?

/-- **A number at the front of a text**, without its sign, and the rest. -/
def number? (negative : Bool) (cs : List Char) : Option (Number × List Char) := do
  let (whole, rest) ← whole? cs
  let (places, rest) ← places? rest
  let (power, rest) ← power? rest
  let (significand, taken) := absorb 0 (digitsOf whole)
  let dropped := whole.length - taken
  let integer :=
    if places.isEmpty && power.isNone && dropped == 0 && !(negative && significand == 0) then
      Number.ofInt? (if negative then -(significand : Int) else significand)
    else none
  match integer with
  | some n => pure (n, rest)
  | none =>
      let (significand, shift) := absorb significand (digitsOf places)
      let x ← scaled? significand ((dropped : Int) - shift + power.getD 0)
      pure (.float (signed negative x), rest)

/-! ### Documents -/

/-- How deep containers may nest. -/
def depthLimit : Nat := 127

mutual

/-- A document at the front of a text, and the rest. -/
def valueAt : Nat → Nat → List Char → Option (Value × List Char)
  | 0, _, _ => none
  | fuel + 1, levels, cs =>
      match skipBlanks cs with
      | [] => none
      | c :: rest =>
          match c with
          | 'n' => (afterWord? "ull".toList rest).map fun tail => (.null, tail)
          | 't' => (afterWord? "rue".toList rest).map fun tail => (.bool true, tail)
          | 'f' => (afterWord? "alse".toList rest).map fun tail => (.bool false, tail)
          | '"' => (textBody? rest).map fun (s, tail) => (.text s, tail)
          | '-' => (number? true rest).map fun (n, tail) => (.number n, tail)
          | '[' =>
              match levels with
              | 0 => none
              | levels + 1 =>
                  match skipBlanks rest with
                  | ']' :: tail => some (.array [], tail)
                  | _ => (itemsAt fuel levels rest).map fun (vs, tail) => (.array vs, tail)
          | '{' =>
              match levels with
              | 0 => none
              | levels + 1 =>
                  match skipBlanks rest with
                  | '}' :: tail => some (.object [], tail)
                  | _ => (membersAt fuel levels rest).map fun (ms, tail) => (.ofMembers ms, tail)
          | _ => (number? false (c :: rest)).map fun (n, tail) => (.number n, tail)

/-- The items of an array that has some, up to the closing bracket. -/
def itemsAt : Nat → Nat → List Char → Option (List Value × List Char)
  | 0, _, _ => none
  | fuel + 1, levels, cs => do
      let (v, rest) ← valueAt fuel levels cs
      match skipBlanks rest with
      | ',' :: tail =>
          let (vs, tail) ← itemsAt fuel levels tail
          pure (v :: vs, tail)
      | ']' :: tail => pure ([v], tail)
      | _ => none

/-- The members of an object that has some, up to the closing brace. -/
def membersAt : Nat → Nat → List Char → Option (List (String × Value) × List Char)
  | 0, _, _ => none
  | fuel + 1, levels, cs =>
      match skipBlanks cs with
      | '"' :: rest => do
          let (name, rest) ← textBody? rest
          match skipBlanks rest with
          | ':' :: rest =>
              let (v, rest) ← valueAt fuel levels rest
              match skipBlanks rest with
              | ',' :: tail =>
                  let (ms, tail) ← membersAt fuel levels tail
                  pure ((name, v) :: ms, tail)
              | '}' :: tail => pure ([(name, v)], tail)
              | _ => none
          | _ => none
      | _ => none

end

/-- **Reads a text that is one document.**  Each step into a container and each step along one takes
a character, which bounds the steps. -/
def Value.read? (text : String) : Option Value :=
  let cs := text.toList
  match valueAt (2 * cs.length + 1) depthLimit cs with
  | some (v, rest) => if (skipBlanks rest).isEmpty then some v else none
  | none => none

end ValueLens.Json
