/-
**The walk through a graph.**

One walk serves both modes.  A dynamic holder is seen through; an indirection starts a chain; any
other value gets its header, is asked for its description if that is allowed, and is then shown by
its structure.  Nothing but the addresses on the path stops the walk on a graph that leads back to
itself, so the walk runs on fuel, and the fuel that a render needs is computed from the size of the
graph and the depth limit.

The order of a map's entries may depend on the compact texts of its keys.  Those are walks of their
own, which start from an empty path but cannot acquire the locks that the walk around them holds; a
level takes them apart from the walk of the levels below.

Main definitions:

* `ValueLens.Walk.level` — one level of the walk, given the walk of the levels below and the
  compact texts of keys;
* `ValueLens.Walk.walk` — the walk on fuel;
* `ValueLens.Scene.dump` — dumps a list of values;
* `ValueLens.Scene.render` — the compact text of a value.
-/
import ValueLens.HexDump
import ValueLens.Render.KeyOrder
import ValueLens.Render.Mode

set_option relaxedAutoImplicit false
set_option autoImplicit false

namespace ValueLens

/-- A walk of the levels below. -/
abbrev Visit := Mode → NodeId → Render Unit

/-- The compact texts of keys, while locks are held. -/
abbrev Texts := List Address → NodeId → Trace String

namespace Walk

/-! ### Byte buffers -/

/-- Whether a sequence is taken for bytes, judging by its first element. -/
def startsWithByte (s : Scene) (q : Sequence) : Bool :=
  match q.items with
  | [] => false
  | first :: _ =>
      match s.graph.shape first with
      | .uint _ 8 => true
      | _ => s.config.isByteElement (s.graph.typeName first)

/-- The elements as bytes, if all are integers. -/
def itemBytes? (g : Graph) (items : List NodeId) : Option (List UInt8) :=
  items.mapM fun id => (g.shape id).toByte?

/-- **The bytes of a sequence that is dumped as a buffer**: its raw view if the hatch is open and
there is one, else its elements one by one. -/
def byteView? (s : Scene) (q : Sequence) : Option (List UInt8) :=
  if startsWithByte s q then
    match s.hatchOpen, q.bytes with
    | true, some bytes => some bytes
    | _, _ => itemBytes? s.graph q.items
  else none

/-! ### Containers -/

/-- A value inside a container. -/
def nested (s : Scene) (visit : Visit) (mode : Mode) (id : NodeId) : Render Unit := do
  mode.beginNested (s.graph.shape id)
  visit mode id

/-- An element of a sequence, or a key or value of a map. -/
def part (s : Scene) (visit : Visit) (mode : Mode) (id : NodeId) : Render Unit := do
  mode.beginPart
  nested s visit mode id

/-- The contents of a sequence: a hex dump of its bytes in a dump, else its elements. -/
def elements (s : Scene) (visit : Visit) (mode : Mode) (q : Sequence) : Render Unit := do
  match mode, byteView? s q with
  | .dump, some bytes => Render.write (HexDump.indented s.config.indent (← get).depth bytes)
  | _, _ => mode.list (part s visit mode) q.items

/-- The compact text of a key, by a walk of its own. -/
def echo (visit : Visit) (id : NodeId) : Trace String :=
  (Render.fromStart (visit (.compact true false) id)).captured

/-- One entry of a map. -/
def entry (s : Scene) (visit : Visit) (mode : Mode) (e : Entry) : Render Unit := do
  part s visit mode e.key
  mode.keyMark
  part s visit mode e.value

/-- The entries of a map, in order if that is wanted. -/
def arranged (s : Scene) (texts : Texts) (es : List Entry) : Render (List Entry) := do
  if s.config.sortKeys then
    let st ← get
    (KeyOrder.sort s (texts st.held) (st.hookAllowed s) es : Trace (List Entry))
  else pure es

/-- The contents of a map. -/
def entries (s : Scene) (texts : Texts) (visit : Visit) (mode : Mode) (es : List Entry) :
    Render Unit := do
  let ordered ← arranged s texts es
  mode.list (entry s visit mode) ordered

/-- One field of a record.  What lies behind a private field is private all the way down. -/
def field (s : Scene) (visit : Visit) (mode : Mode) (f : Field) : Render Unit := do
  mode.label s.config f.name
  Render.secretly (f.visibility == .internal) (nested s visit mode f.value)

/-! ### Values -/

/-- The structure of a value that is no indirection. -/
def structural (s : Scene) (texts : Texts) (visit : Visit) (mode : Mode) (id : NodeId) :
    Shape → Render Unit
  | .bool b => Render.write (Scalar.bool b)
  | .int v _ => Render.write (Scalar.int 10 v)
  | .uint v _ => Render.write (Scalar.uint 10 v)
  | .float v w => Render.write (Scalar.float v w)
  | .complex re im w => Render.write (Scalar.complex re im w)
  | .text t => Render.write (mode.text t)
  | .array q => mode.nest s id .sequence (elements s visit mode q)
  | .slice (some q) => mode.nest s id .sequence (elements s visit mode q)
  | .map (some es) => mode.nest s id .map (entries s texts visit mode es)
  | .record fs => mode.nest s id .record (mode.list (field s visit mode) fs)
  | .slice none => Render.write Mode.nilMark
  | .map none => Render.write Mode.nilMark
  | .holder _ => Render.write Mode.nilMark
  | .handle a => Render.write (Scalar.address Scalar.addressWidth a)
  | .guarded a _ _ => Render.write (Scalar.address Scalar.addressWidth a)
  | .pointer a _ => Render.write (Scalar.address Scalar.addressWidth a)
  | .invalid => Render.write Mode.invalidMark

/-- Asks a value for its description where that is allowed; an empty holder is never asked. -/
def ask (s : Scene) (n : Node) : Render (Answer × Bool) := do
  if !n.shape.isHolder && (← get).hookAllowed s then
    (n.consult s.config : Trace (Answer × Bool))
  else pure (.notAsked, false)

/-- A value that is no indirection. -/
def value (s : Scene) (texts : Texts) (visit : Visit) (mode : Mode) (id : NodeId) :
    Render Unit := do
  let n := s.graph.node id
  mode.header s n
  let (answer, standsIn) ← ask s n
  Render.step (.visited id answer)
  if standsIn then pure () else structural s texts visit mode id n.shape

/-- The end of a chain.  The value at the end goes without its type, which the chain has named, and
the locks of the chain are held meanwhile. -/
def finish (s : Scene) (visit : Visit) (mode : Mode) (chain : Chain) (link : Link) :
    Render Unit := do
  mode.chainHeader s chain link
  match link, link.ending? with
  | .value id, _ =>
      Render.step (.reached id)
      Render.setSkipType true
      Render.holding chain.locks (visit mode id)
  | _, some ending =>
      Render.step (.ended ending)
      Render.write (mode.endingMark ending)
  | _, none => pure ()
  mode.chainFooter

/-- **A chain of indirections**: walked to its end, shown, and taken off the path again. -/
def follow (s : Scene) (visit : Visit) (mode : Mode) (id : NodeId) : Render Unit := do
  let (chain, link) ← Chain.walk s (Chain.fuel s.graph) {} id
  finish s visit mode chain link
  modify fun st => st.leave chain.entered

/-! ### The walk -/

/-- **One level of the walk**, given the walk of the levels below and the compact texts of keys. -/
def level (s : Scene) (texts : Texts) (visit : Visit) (mode : Mode) (id : NodeId) :
    Render Unit := do
  match s.graph.shape id with
  | .holder (some content) => visit mode content
  | .invalid =>
      Render.step (.visited id .notAsked)
      mode.invalid s.config
  | shape =>
      if shape.isIndirection s.config then
        if ← mode.beginChain s.config shape then follow s visit mode id
      else value s texts visit mode id

/-- **The walk on fuel.** -/
def walk (s : Scene) : Nat → Visit
  | 0 => fun _ _ => Render.stalled
  | fuel + 1 => level s (fun held => echo (walk (s.holding held) fuel)) (walk s fuel)

/-- The compact texts of keys, on fuel. -/
def keyTexts (s : Scene) (fuel : Nat) : Texts := fun held => echo (walk (s.holding held) fuel)

/-- The fuel for the walks of a graph.  A way down passes at most every node between two chains, at
most as many chains as there are addresses, and at most as many keys that start walks of their own
as there are keys and locks that may be held. -/
def fuel (g : Graph) : Nat := Nat.pow (g.size + 2) 4

end Walk

namespace Scene

/-- The fuel for the renders of a scene.  Under a depth limit the walk ends also on a graph in which
a container is a part of itself, so each level of the limit brings fuel of its own. -/
def fuel (s : Scene) : Nat := Walk.fuel s.graph * (s.config.maxDepth + 1)

theorem graph_fuel_le (s : Scene) : Walk.fuel s.graph ≤ s.fuel :=
  Nat.le_mul_of_pos_right _ (Nat.succ_pos _)

/-- Shows one value. -/
def present (s : Scene) (mode : Mode) (id : NodeId) : Trace Unit :=
  Render.fromStart (Walk.walk s s.fuel mode id)

/-- **Dumps values**: each is followed by an end of line, and an empty line divides two. -/
def dump (s : Scene) : List NodeId → Trace Unit
  | [] => pure ()
  | [id] => do
      s.present .dump id
      Trace.write "\n"
  | id :: next :: rest => do
      s.present .dump id
      Trace.write "\n"
      Trace.write "\n"
      dump s (next :: rest)

/-- The dump of values as a text. -/
def dumpText (s : Scene) (ids : List NodeId) : Trace String :=
  (s.dump ids).captured

/-- **The compact text of a value.** -/
def render (s : Scene) (types details : Bool) (id : NodeId) : Trace String :=
  (s.present (.compact types details) id).captured

end Scene

end ValueLens
