/-
**Templates.**

A template is a text with holes in braces.  A hole may name the position of its argument and may
carry a format specification after a colon; holes without a position take the arguments in turn.
Doubled braces are plain braces.

Main definitions:

* `ValueLens.Template.Piece` — plain text or a hole;
* `ValueLens.Template.parse?` — the pieces of a template;
* `ValueLens.Template.layout?` — the format specification of a hole;
* `ValueLens.Template.fill` — a template filled with values.
-/
import ValueLens.Decimal.Reading
import ValueLens.Verb

set_option relaxedAutoImplicit false
set_option autoImplicit false

namespace ValueLens.Template

/-- A hole for an argument. -/
structure Hole where
  index : Nat
  conversion : Conversion
  layout : Layout
  deriving DecidableEq, Repr

/-- A part of a template. -/
inductive Piece where
  | plain (c : Char)
  | hole (h : Hole)
  deriving DecidableEq, Repr

/-! ### Format specifications -/

/-- The alignment of a character. -/
def alignment? : Char → Option Alignment
  | '<' => some .left
  | '^' => some .center
  | '>' => some .right
  | _ => none

/-- The fill character and the alignment at the start of a specification. -/
def alignmentPart (l : Layout) : List Char → Layout × List Char
  | fill :: a :: rest =>
      match alignment? a, alignment? fill with
      | some al, _ => ({ l with fill := fill, alignment := some al }, rest)
      | none, some al => ({ l with alignment := some al }, a :: rest)
      | none, none => (l, fill :: a :: rest)
  | [a] =>
      match alignment? a with
      | some al => ({ l with alignment := some al }, [])
      | none => (l, [a])
  | [] => (l, [])

/-- Takes a flag character off the front. -/
def flagPart (flag : Char) : List Char → Bool × List Char
  | [] => (false, [])
  | c :: rest => if c = flag then (true, rest) else (false, c :: rest)

/-- Takes a number off the front. -/
def numberPart (cs : List Char) : Option Nat × List Char :=
  let (ds, rest) := DecimalText.spanDigits cs
  (if ds.isEmpty then none else some (DecimalText.number ds), rest)

/-- **A format specification**: fill and alignment, plus, alternate and zero flags, width,
precision, and the letter of the conversion. -/
def layout? (cs : List Char) : Option (Conversion × Layout) := do
  let (l, cs) := alignmentPart {} cs
  let (plus, cs) := flagPart '+' cs
  let (alternate, cs) := flagPart '#' cs
  let (zero, cs) := flagPart '0' cs
  let (width, cs) := numberPart cs
  let (precision, cs) :=
    match cs with
    | '.' :: rest => numberPart rest
    | _ => (none, cs)
  let conversion ← Conversion.ofLetter? (String.ofList cs)
  pure (conversion, { l with plus, alternate, zero, width, precision })

/-! ### Templates -/

/-- A hole from the text between its braces; `next` is the position of a hole that names none. -/
def hole? (next : Nat) (cs : List Char) : Option (Hole × Nat) := do
  let (position, rest) := numberPart cs
  let spec ←
    match rest with
    | [] => some []
    | ':' :: spec => some spec
    | _ => none
  let (conversion, layout) ← layout? spec
  match position with
  | some index => pure (⟨index, conversion, layout⟩, next)
  | none => pure (⟨next, conversion, layout⟩, next + 1)

/-- The loop behind `parse?`; `fuel` bounds the number of characters. -/
def parseFrom : Nat → Nat → List Char → Option (List Piece)
  | _, _, [] => some []
  | 0, _, _ => none
  | fuel + 1, next, '{' :: '{' :: rest => (parseFrom fuel next rest).map (.plain '{' :: ·)
  | fuel + 1, next, '}' :: '}' :: rest => (parseFrom fuel next rest).map (.plain '}' :: ·)
  | fuel + 1, next, '{' :: rest =>
      match rest.dropWhile (· != '}') with
      | [] => none
      | _ :: tail => do
          let (h, next) ← hole? next (rest.takeWhile (· != '}'))
          (parseFrom fuel next tail).map (.hole h :: ·)
  | _ + 1, _, '}' :: _ => none
  | fuel + 1, next, c :: rest => (parseFrom fuel next rest).map (.plain c :: ·)

/-- **The pieces of a template.** -/
def parse? (template : String) : Option (List Piece) :=
  parseFrom template.length 0 template.toList

/-- Writes the pieces, each hole with its argument. -/
def fillPieces (s : Scene) (arguments : List NodeId) : List Piece → Trace Unit
  | [] => pure ()
  | .plain c :: rest => do
      Trace.write c.toString
      fillPieces s arguments rest
  | .hole h :: rest => do
      s.format h.conversion h.layout (arguments.getD h.index s.graph.size)
      fillPieces s arguments rest

/-- **A template filled with values**, or nothing if it is malformed. -/
def fill (s : Scene) (template : String) (arguments : List NodeId) : Option (Trace Unit) :=
  (parse? template).map (fillPieces s arguments)

end ValueLens.Template
