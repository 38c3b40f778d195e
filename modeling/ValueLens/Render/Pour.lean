/-
**Dumping into a sink.**

A dump can go straight into a text sink, one small text after another.  Every write may be refused,
and then the dump is over: no part goes on after a part that was cut off.  What a part changed for
the time of a value, the privacy of a field or the path of a chain, is taken back also when the
value was cut off.

A text with arguments in it is written literal by literal and argument by argument, a formatted
argument in the pieces that the formatting gives it.

Asking values, walking chains and ordering keys write nothing to the sink; they are done as in
other renders, and what they log is logged.

Main definitions:

* `ValueLens.Pour` — computations over the state of a render that write to a sink;
* `ValueLens.Pour.write`, `ValueLens.Pour.writes` — writes that may be refused;
* `ValueLens.Pour.restoring` — a part after which the state is put right in any case;
* `ValueLens.Pour.level`, `ValueLens.Pour.walk` — the walk of a dump;
* `ValueLens.Scene.dumpInto` — dumps values into a sink.
-/
import ValueLens.Render.Walk
import ValueLens.Sink

set_option relaxedAutoImplicit false
set_option autoImplicit false

namespace ValueLens

/-- Why a dump came to no end. -/
inductive Interruption where
  /-- The sink refused a write. -/
  | refused
  /-- There was not enough fuel. -/
  | stalled
  deriving DecidableEq, Repr

/-- **Computations over the state of a render that write to a sink.** -/
abbrev Pour := ExceptT Interruption (StateT RenderState Dialogue)

namespace Pour

variable {α : Type}

/-! ### Writing and logging -/

/-- **Writes a text.**  If it is refused, the dump is over. -/
def write (text : String) : Pour Unit := do
  if ← (Dialogue.ask text : Dialogue Bool) then pure () else throw .refused

/-- Writes one text after another. -/
def writes : List String → Pour Unit
  | [] => pure ()
  | text :: rest => do
      write text
      writes rest

/-- Writes a formatted argument. -/
def print (f : Formatting) (text : String) : Pour Unit := writes (f.pieces text)

/-- Logs an event. -/
def log (level : Level) (message : String) : Pour Unit :=
  (Dialogue.notes [⟨level, message⟩] : Dialogue Unit)

/-- A computation that writes nothing: its events are logged. -/
def quietly (t : Trace α) : Pour α := do
  (Dialogue.notes t.logs : Dialogue Unit)
  match t.result with
  | none => throw .stalled
  | some a => pure a

/-- A part of a render that writes nothing. -/
def silently (m : Render α) : Pour α := do
  let (a, st) ← quietly (m (← get))
  set st
  pure a

/-- **A part after which the state is put right**, also if the part was cut off. -/
def restoring (m : Pour α) (restore : RenderState → RenderState) : Pour α := fun st => do
  let (outcome, st) ← m st
  pure (outcome, restore st)

/-- Does the same so many times. -/
def repeated (m : Pour Unit) : Nat → Pour Unit
  | 0 => pure ()
  | n + 1 => do
      m
      repeated m n

/-! ### Headers -/

/-- The indentation of the current depth, unless something stands on the line already. -/
def indent (c : Config) : Pour Unit := do
  let st ← get
  if st.skipIndent then set { st with skipIndent := false }
  else repeated (write c.indent) st.depth

/-- The length and the capacity of a value in parentheses.  What is zero is left out, a length that
is `always` shown apart. -/
def lengths (f : Formatting) (c : Config) (length capacity : Nat) (always : Bool) : Pour Unit := do
  let showsLength := length != 0 || always
  let showsCapacity := !c.disableCapacities && capacity != 0
  if showsLength || showsCapacity then
    write "("
    if showsLength then
      write "len="
      print f (Numeral.decimal length)
    if showsCapacity then
      if showsLength then write " "
      write "cap="
      print f (Numeral.decimal capacity)
    write ") "

/-- The lengths of a shape. -/
def lengthsOf (f : Formatting) (c : Config) : Shape → Pour Unit
  | .array q => lengths f c q.items.length q.capacity false
  | .slice (some q) => lengths f c q.items.length q.capacity false
  | .map (some entries) => lengths f c entries.length 0 true
  | .text t => lengths f c t.utf8ByteSize 0 false
  | _ => pure ()

/-- What stands in front of a value. -/
def header (f : Formatting) (s : Scene) (n : Node) : Pour Unit := do
  if !(← get).skipType then
    indent s.config
    writes ["(", n.typeName, ") "]
  modify fun st => { st with skipType := false }
  lengthsOf f s.config n.shape

/-- An invalid value. -/
def invalid (c : Config) : Pour Unit := do
  if !(← get).skipType then indent c
  modify fun st => { st with skipType := false }
  write Mode.invalidMark

/-- Writes the description of a node, and tells whether it stands in for the value. -/
def consult (c : Config) (n : Node) : Pour Bool := do
  match ← quietly n.describe with
  | .absent => pure false
  | .panicked message =>
      writes ["(PANIC=", message, ")"]
      pure true
  | .text t => description t
  | .error t => description t
where
  /-- Writes a description, in parentheses if the structure is to follow. -/
  description (t : String) : Pour Bool :=
    if c.continueOnMethod then do
      writes ["(", t, ") "]
      pure false
    else do
      write t
      pure true

/-! ### Scalars -/

/-- A signed integer. -/
def int (f : Formatting) (v : Int64) : Pour Unit := do
  if v.toInt < 0 then write "-"
  print f (Numeral.write 10 v.toInt.natAbs)

/-- A complex number in parentheses. -/
def complex (re im : Double) (width : FloatWidth) : Pour Unit := do
  write "("
  write (Scalar.float re width)
  let imaginary := Scalar.float im width
  if Scalar.atLeastZero im && !imaginary.startsWith "+" then write "+"
  write imaginary
  write "i)"

/-- An address; address zero is nil. -/
def address (f : Formatting) (a : Address) : Pour Unit :=
  if a = 0 then write Mode.nilMark
  else do
    write "0x"
    print f (Numeral.zeroPadded Scalar.addressWidth 16 a.toNat)

/-! ### Containers -/

/-- One nesting level deeper. -/
def deeper (inside : Pour Unit) : Pour Unit := do
  modify fun st => { st with depth := st.depth + 1 }
  inside
  modify fun st => { st with depth := st.depth - 1 }

/-- A container: brackets around what is inside, or the mark of the depth limit. -/
def nest (s : Scene) (inside : Pour Unit) : Pour Unit := do
  if s.config.atLimit (← get).depth then
    log .trace ("Depth limit " ++ Numeral.decimal s.config.maxDepth ++ " reached")
    write "<max depth reached>"
  else
    write "\x7b\n"
    deeper inside
    indent s.config
    write "\x7d"

/-- The parts of a container with what divides them. -/
def list {β : Type} (part : β → Pour Unit) : List β → Pour Unit
  | [] => pure ()
  | x :: rest => do
      part x
      write (if rest.isEmpty then "\n" else ",\n")
      list part rest

/-- The contents of a sequence: a hex dump of its bytes, else its elements. -/
def elements (s : Scene) (visit : NodeId → Pour Unit) (q : Sequence) : Pour Unit := do
  match Walk.byteView? s q with
  | some bytes => write (HexDump.indented s.config.indent (← get).depth bytes)
  | none => list visit q.items

/-- What stands between a key and its value, which go on one line. -/
def keyMark : Pour Unit := do
  write ": "
  modify fun st => { st with skipIndent := true }

/-- One entry of a map. -/
def entry (visit : NodeId → Pour Unit) (e : Entry) : Pour Unit := do
  visit e.key
  keyMark
  visit e.value

/-- The contents of a map. -/
def entries (s : Scene) (texts : Texts) (visit : NodeId → Pour Unit) (es : List Entry) :
    Pour Unit := do
  let ordered ← silently (Walk.arranged s texts es)
  list (entry visit) ordered

/-- The label of a field, which starts the line on which the value goes on. -/
def label (c : Config) (name : String) : Pour Unit := do
  indent c
  writes [name, ": "]
  modify fun st => { st with skipIndent := true }

/-- One field of a record.  The privacy outside is restored also if the field was cut off. -/
def field (s : Scene) (visit : NodeId → Pour Unit) (fd : Field) : Pour Unit := do
  label s.config fd.name
  let outer := (← get).inPrivate
  modify fun st => { st with inPrivate := outer || fd.visibility == .internal }
  restoring (visit fd.value) fun st => { st with inPrivate := outer }

/-! ### Values -/

/-- The structure of a value that is no indirection. -/
def structural (f : Formatting) (s : Scene) (texts : Texts)
    (visit : NodeId → Pour Unit) : Shape → Pour Unit
  | .bool b => write (Scalar.bool b)
  | .int v _ => int f v
  | .uint v _ => print f (Scalar.uint 10 v)
  | .float v w => write (Scalar.float v w)
  | .complex re im w => complex re im w
  | .text t => print f (Text.quoted t)
  | .array q => nest s (elements s visit q)
  | .slice (some q) => nest s (elements s visit q)
  | .map (some es) => nest s (entries s texts visit es)
  | .record fs => nest s (list (field s visit) fs)
  | .slice none => write Mode.nilMark
  | .map none => write Mode.nilMark
  | .holder _ => write Mode.nilMark
  | .handle a => address f a
  | .guarded a _ _ => address f a
  | .pointer a _ => address f a
  | .invalid => write Mode.invalidMark

/-- Asks a value for its description where that is allowed; an empty holder is never asked. -/
def ask (s : Scene) (n : Node) : Pour Bool := do
  if !n.shape.isHolder && (← get).hookAllowed s then consult s.config n else pure false

/-- A value that is no indirection. -/
def value (f : Formatting) (s : Scene) (texts : Texts) (visit : NodeId → Pour Unit)
    (id : NodeId) : Pour Unit := do
  let n := s.graph.node id
  header f s n
  if ← ask s n then pure () else structural f s texts visit n.shape

/-! ### Chains of indirections -/

/-- How many stars the type at the end of a chain gets, and the type. -/
def chainLevels (g : Graph) (chain : Chain) : Link → Nat × String
  | .nil typeName _ => (chain.indirects, typeName)
  | .unreachable typeName => (chain.indirects, typeName)
  | .cycle typeName isPointer _ => (chain.indirects + isPointer.toNat, typeName)
  | .value id => (chain.indirects, g.typeName id)

/-- The type at the end of a chain in parentheses. -/
def chainType (g : Graph) (chain : Chain) (link : Link) : Pour Unit := do
  let (stars, typeName) := chainLevels g chain link
  write "("
  repeated (write "*") stars
  writes [typeName, ")"]

/-- Addresses with arrows between them. -/
def arrows (f : Formatting) : List Address → Pour Unit
  | [] => pure ()
  | [a] => address f a
  | a :: b :: rest => do
      address f a
      write "->"
      arrows f (b :: rest)

/-- The addresses of a chain in parentheses. -/
def addresses (f : Formatting) (as : List Address) : Pour Unit :=
  if as.isEmpty then pure ()
  else do
    write "("
    arrows f as
    write ")"

/-- What stands in front of the end of a chain. -/
def chainHeader (f : Formatting) (s : Scene) (chain : Chain) (link : Link) : Pour Unit := do
  chainType s.graph chain link
  if !s.config.disablePointerAddresses then addresses f chain.addresses
  write "("

/-- A part for which further locks are held.  They are given back also if the part was cut off. -/
def holding (locks : List Address) (m : Pour Unit) : Pour Unit := do
  let outer := (← get).held
  modify fun st => { st with held := locks ++ outer }
  restoring m fun st => { st with held := outer }

/-- The end of a chain. -/
def finish (f : Formatting) (s : Scene) (visit : NodeId → Pour Unit) (chain : Chain)
    (link : Link) : Pour Unit := do
  chainHeader f s chain link
  match link with
  | .nil _ _ => write Mode.nilMark
  | .cycle _ _ _ => write "<already shown>"
  | .unreachable _ => write Mode.invalidMark
  | .value id =>
      modify fun st => { st with skipType := true }
      holding chain.locks (visit id)
  write ")"

/-- A chain of indirections.  It is taken off the path also if its end was cut off. -/
def follow (f : Formatting) (s : Scene) (visit : NodeId → Pour Unit) (id : NodeId) :
    Pour Unit := do
  let (chain, link) ← silently (Chain.walk s (Chain.fuel s.graph) {} id)
  restoring (finish f s visit chain link) fun st => st.leave chain.entered

/-! ### The walk -/

/-- **One level of the walk of a dump**, given the walk of the levels below and the compact texts of
keys. -/
def level (f : Formatting) (s : Scene) (texts : Texts) (visit : NodeId → Pour Unit)
    (id : NodeId) : Pour Unit := do
  match s.graph.shape id with
  | .holder (some content) => visit content
  | .invalid => invalid s.config
  | shape =>
      if shape.isIndirection s.config then
        indent s.config
        follow f s visit id
      else value f s texts visit id

/-- **The walk of a dump on fuel.** -/
def walk (f : Formatting) (s : Scene) : Nat → NodeId → Pour Unit
  | 0 => fun _ => throw .stalled
  | fuel + 1 => level f s (Walk.keyTexts s fuel) (walk f s fuel)

/-- One value, from the initial state and followed by an end of line. -/
def page (f : Formatting) (s : Scene) (id : NodeId) : Pour Unit := do
  set ({} : RenderState)
  walk f s s.fuel id
  write "\n"

/-- Values with an empty line between two of them. -/
def values (f : Formatting) (s : Scene) (first : Bool) : List NodeId → Pour Unit
  | [] => pure ()
  | id :: rest => do
      if !first then write "\n"
      page f s id
      values f s false rest

end Pour

/-- A report without the state of the render. -/
def Report.verdict {σ α : Type} (report : Report σ (Except Interruption α × RenderState)) :
    Report σ (Except Interruption α) :=
  { report with result := report.result.1 }

/-- **Dumps values into a sink.** -/
def Scene.dumpInto {σ : Type} (s : Scene) (f : Formatting) (w : Sink σ) (start : σ)
    (ids : List NodeId) : Report σ (Except Interruption Unit) :=
  ((Pour.values f s true ids {}).run w start).verdict

end ValueLens
