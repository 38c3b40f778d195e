/-
**Verbs: one number format for every leaf.**

A verb asks for hexadecimal, octal, binary or exponent notation, or for an address.  It is applied
to every leaf of a value with the same layout, and only the punctuation of containers is added.  A
leaf for which the verb makes no sense is written as a mark that names the verb, the type and the
compact text.  Only an indirection at the very top is followed; deeper ones show their address.

Main definitions:

* `ValueLens.Verb` — the verbs;
* `ValueLens.Verb.level`, `ValueLens.Verb.walk` — the walk that applies a verb;
* `ValueLens.Conversion` — a verb, or the compact text as a whole;
* `ValueLens.Scene.format` — a value under a conversion and a layout.
-/
import ValueLens.Render.Walk
import ValueLens.Text.Layout

set_option relaxedAutoImplicit false
set_option autoImplicit false

namespace ValueLens

/-- **The verbs.** -/
inductive Verb where
  | lowerHex
  | upperHex
  | octal
  | binary
  | lowerExp
  | upperExp
  | pointer
  deriving DecidableEq, Repr

namespace Verb

/-- The letter of a verb. -/
def letter : Verb → String
  | .lowerHex => "x"
  | .upperHex => "X"
  | .octal => "o"
  | .binary => "b"
  | .lowerExp => "e"
  | .upperExp => "E"
  | .pointer => "p"

/-- The verb of a letter. -/
def ofLetter? (letter : String) : Option Verb :=
  [lowerHex, upperHex, octal, binary, lowerExp, upperExp, pointer].find? (·.letter == letter)

def isHex : Verb → Bool
  | .lowerHex => true
  | .upperHex => true
  | _ => false

/-- The verbs of exponent notation, with whether the letter is a capital. -/
def exponent? : Verb → Option Bool
  | .lowerExp => some false
  | .upperExp => some true
  | _ => none

/-- The mark and the digits of a magnitude in the radix of a verb that has one. -/
def radixDigits? (v : Verb) (n : Nat) : Option (String × String) :=
  match v with
  | .lowerHex => some ("0x", Numeral.write 16 n)
  | .upperHex => some ("0x", Numeral.upper (Numeral.write 16 n))
  | .octal => some ("0o", Numeral.write 8 n)
  | .binary => some ("0b", Numeral.write 2 n)
  | _ => none

/-! ### Leaves -/

/-- **The mark of a leaf for which a verb makes no sense.** -/
def badMark (s : Scene) (v : Verb) (id : NodeId) : Trace Unit := do
  let shown ← s.render false false id
  Trace.write ("%!" ++ v.letter ++ "(" ++ s.graph.typeName id ++ "=" ++ shown ++ ")")

/-- An integer, or none if the verb is for addresses. -/
def integer? (v : Verb) (l : Layout) (z : Int) : Option String :=
  match v.radixDigits? z.natAbs with
  | some (mark, digits) => some (l.integral (z < 0) mark digits)
  | none => v.exponent?.map fun capital => l.exponentialInt capital z

/-- A floating point number at its width, or none if the verb is not for them. -/
def float? (v : Verb) (l : Layout) (x : Double) (width : FloatWidth) : Option String :=
  v.exponent?.map fun capital =>
    match width with
    | .single => l.exponential capital x.narrow
    | .double => l.exponential capital x

/-- A complex number, or none if the verb is not for them.  Both parts are written at full width,
and the imaginary part gets a plus sign unless its sign bit is set. -/
def complex? (v : Verb) (l : Layout) (re im : Double) : Option String :=
  v.exponent?.map fun capital =>
    "(" ++ l.exponential capital re ++ (if im.negative then "" else "+")
      ++ l.exponential capital im ++ "i)"

/-- Bytes as pairs of digits without gaps, laid out as a text. -/
def hexBytes (v : Verb) (l : Layout) (bytes : List UInt8) : String :=
  let digits := String.ofList (bytes.flatMap HexDump.byteChars)
  l.text (if v = .upperHex then Numeral.upper digits else digits)

/-- The bytes of a text. -/
def textBytes (t : String) : List UInt8 := t.toUTF8.toList

/-- An address as a number. -/
def addressDigits (v : Verb) (l : Layout) (a : Address) : String :=
  let digits := Numeral.write 16 a.toNat
  l.integral false "0x" (if v = .upperHex then Numeral.upper digits else digits)

/-- **The bytes of a sequence that a hexadecimal verb writes without gaps**: its raw view if it has
one, else its elements if the configuration takes their type for bytes. -/
def byteRun? (s : Scene) (v : Verb) (q : Sequence) : Option (List UInt8) :=
  if !v.isHex then none
  else
    match q.bytes, q.items with
    | some bytes, _ => some bytes
    | none, [] => none
    | none, first :: _ =>
        if s.config.isByteElement (s.graph.typeName first) then Walk.itemBytes? s.graph q.items
        else none

/-! ### The walk -/

/-- The walk of the levels below, at a depth. -/
abbrev Below := Nat → NodeId → Trace Unit

/-- Parts with one blank between two. -/
def spaced {α : Type} (part : α → Trace Unit) : List α → Trace Unit
  | [] => pure ()
  | [x] => part x
  | x :: y :: rest => do
      part x
      Trace.write " "
      spaced part (y :: rest)

/-- A sequence: bytes without gaps, or its elements in brackets. -/
def sequence (s : Scene) (v : Verb) (l : Layout) (below : Below) (depth : Nat) (q : Sequence) :
    Trace Unit :=
  match byteRun? s v q with
  | some bytes => Trace.write (v.hexBytes l bytes)
  | none => do
      Trace.write "["
      spaced (below (depth + 1)) q.items
      Trace.write "]"

/-- A map: its entries in order. -/
def map (s : Scene) (below : Below) (depth : Nat) (es : List Entry) : Trace Unit := do
  let ordered ← KeyOrder.sort s (s.render true false) (!s.config.disableMethods) es
  Trace.write "map["
  spaced (fun e => do
    below (depth + 1) e.key
    Trace.write ":"
    below (depth + 1) e.value) ordered
  Trace.write "]"

/-- A record: its fields, with their names under the plus flag. -/
def record (l : Layout) (below : Below) (depth : Nat) (fs : List Field) : Trace Unit := do
  Trace.write "\x7b"
  spaced (fun f => do
    if l.plus then Trace.write (f.name ++ ":")
    below (depth + 1) f.value) fs
  Trace.write "\x7d"

/-- Writes a leaf, or the mark if the verb makes no sense for it. -/
def leaf (s : Scene) (v : Verb) (id : NodeId) : Option String → Trace Unit
  | some t => Trace.write t
  | none => badMark s v id

/-- The structure of a value under a verb, given the walk of the levels below and the one behind an
exclusive lock, which is held then. -/
def structural (s : Scene) (v : Verb) (l : Layout) (below : Below) (locked : Address → Below)
    (depth : Nat) (id : NodeId) : Trace Unit :=
  match s.graph.shape id with
  | .invalid => Trace.write Mode.invalidMark
  | .holder (some content) => below depth content
  | .holder none => Trace.write Mode.nilMark
  | .int z _ => leaf s v id (v.integer? l z.toInt)
  | .uint n _ => leaf s v id (v.integer? l n.toNat)
  | .float x w => leaf s v id (v.float? l x w)
  | .complex re im _ => leaf s v id (v.complex? l re im)
  | .text t => leaf s v id (if v.isHex then some (v.hexBytes l (textBytes t)) else none)
  | .bool _ => badMark s v id
  | .array q => sequence s v l below depth q
  | .slice (some q) => sequence s v l below depth q
  | .slice none => Trace.write "[]"
  | .map (some es) => map s below depth es
  | .map none => Trace.write "map[]"
  | .record fs => record l below depth fs
  | .handle a => Trace.write (v.addressDigits l a)
  | .pointer a target =>
      match target, depth with
      | some t, 0 => do
          Trace.write "&"
          below 1 t
      | _, _ => Trace.write (v.addressDigits l a)
  | .guarded a content lock =>
      if depth = 0 ∧ !s.config.disableGuardResolution then
        match (Shape.guarded a content lock).acquire? with
        | some t => if lock.exclusive then locked a 1 t else below 1 t
        | none => do
            Trace.log .trace
              ("Could not acquire " ++ s.graph.typeName id ++ " at " ++ Scalar.bareAddress a)
            Trace.write Mode.invalidMark
      else Trace.write (v.addressDigits l a)

/-- Holders and indirections are not asked for a description. -/
def isAsked : Shape → Bool
  | .holder _ => false
  | .pointer _ _ => false
  | .guarded _ _ _ => false
  | _ => true

/-- **One level of the walk.**  A description is used by the hexadecimal verbs only; a failure to
produce one stands in for the value under every verb. -/
def level (s : Scene) (v : Verb) (l : Layout) (below : Below) (locked : Address → Below)
    (depth : Nat) (id : NodeId) : Trace Unit := do
  let n := s.graph.node id
  let answer ←
    if isAsked n.shape && !s.config.disableMethods then n.describe else pure .absent
  match answer, answer.text? with
  | .panicked message, _ => Trace.write ("%!" ++ v.letter ++ Node.panicMark message)
  | _, some t =>
      if v.isHex then Trace.write (v.hexBytes l (textBytes t))
      else structural s v l below locked depth id
  | _, none => structural s v l below locked depth id

/-- **The walk on fuel.** -/
def walk (s : Scene) (v : Verb) (l : Layout) : Nat → Below
  | 0 => fun _ _ => Trace.stalled
  | fuel + 1 => level s v l (walk s v l fuel) fun a => walk (s.holding [a]) v l fuel

/-- The verb for addresses looks through dynamic holders only. -/
def addressOf (s : Scene) (l : Layout) : Nat → NodeId → Trace Unit
  | 0, _ => Trace.stalled
  | fuel + 1, id =>
      match s.graph.shape id with
      | .holder (some content) => addressOf s l fuel content
      | .pointer a _ => Trace.write (l.text (Scalar.bareAddress a))
      | .guarded a _ _ => Trace.write (l.text (Scalar.bareAddress a))
      | .handle a => Trace.write (l.text (Scalar.bareAddress a))
      | _ => badMark s .pointer id

/-- The fuel for a graph: the walk follows one indirection, so it passes every node twice at
most. -/
def fuel (g : Graph) : Nat := 2 * g.size + 4

/-- **A value under a verb.** -/
def apply (s : Scene) (v : Verb) (l : Layout) (id : NodeId) : Trace Unit :=
  match v with
  | .pointer => addressOf s l (fuel s.graph) id
  | _ => walk s v l (fuel s.graph) 0 id

end Verb

/-- How a value becomes text: as a whole, or leaf by leaf under a verb. -/
inductive Conversion where
  | whole
  | verb (v : Verb)
  deriving DecidableEq, Repr

/-- The conversion of a letter; no letter and the question mark mean the whole value. -/
def Conversion.ofLetter? (letter : String) : Option Conversion :=
  if letter = "" ∨ letter = "?" then some .whole else (Verb.ofLetter? letter).map .verb

/-- **A value under a conversion and a layout.**  For the whole value the alternate flag adds types
and the plus flag adds details, and the layout applies to the whole text. -/
def Scene.format (s : Scene) (conversion : Conversion) (l : Layout) (id : NodeId) : Trace Unit :=
  match conversion with
  | .whole => do
      let shown ← s.render l.alternate l.plus id
      Trace.write (l.text shown)
  | .verb v => v.apply s l id

end ValueLens
