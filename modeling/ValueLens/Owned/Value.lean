/-
**Owned values.**

An owned value is a tree: each part is owned by the part around it.  Only allocations with several
owners can be reached in more than one way.  They carry a label, under which later parts refer to
them, and a part inside an allocation may also refer to the allocation around it.

Main definitions:

* `ValueLens.Owned` — the trees;
* `ValueLens.Owned.compare` — the order of values of one type, by their contents;
* `ValueLens.Owned.Layout` — which part lies at the beginning of a whole;
* `ValueLens.Owned.place` — the tree as nodes of a graph, with an address for each allocation, each
  lock and each error;
* `ValueLens.Owned.Placement.start` — what lies at the very beginning of a node, and shares its
  address.
-/
import ValueLens.Graph
import ValueLens.Json.Value

set_option relaxedAutoImplicit false
set_option autoImplicit false

namespace ValueLens

/-- How the elements of a sequence are kept. -/
structure Keeping where
  /-- Whether the length belongs to the type. -/
  fixed : Bool := false
  /-- The room for elements, if it differs from their number. -/
  capacity : Option Nat := none
  /-- Whether the elements lie side by side as bytes. -/
  contiguousBytes : Bool := false
  deriving DecidableEq, Repr

/-- **An owned value.**  Every part carries the name of its type. -/
inductive Owned where
  /-- A value without parts. -/
  | plain (name : String) (shape : Shape)
  /-- An error, which shows nothing but its description. -/
  | error (name : String) (description : String)
  /-- A document. -/
  | document (value : Json.Value)
  | sequence (name : String) (keeping : Keeping) (items : List Owned)
  | mapping (name : String) (entries : List (Owned × Owned))
  | record (name : String) (capability : Capability) (fields : List (String × Visibility × Owned))
  /-- A holder, full or empty. -/
  | holder (name : String) (content : Option Owned)
  /-- A lock, at its own address.  What it guards lies behind its state, never at its beginning. -/
  | lock (name : String) (lock : Lock) (content : Owned)
  /-- An indirection that leads nowhere. -/
  | dangling (name : String)
  /-- An indirection to an allocation of its own. -/
  | pointer (name : String) (target : Owned)
  /-- An indirection to an allocation that later parts may refer to. -/
  | shared (name : String) (label : String) (target : Owned)
  /-- An indirection to an allocation that its own parts may refer to. -/
  | knot (name : String) (label : String) (target : Owned)
  /-- An indirection to an allocation by its label. -/
  | link (name : String) (label : String)
  /-- An indirection to an allocation that stands for a node of the graph. -/
  | view (name : String) (target : NodeId)
  /-- A reference, which looks like the value it leads to; the value itself lies elsewhere. -/
  | borrowed (target : Owned)

namespace Owned

/-! ### Order -/

/-- The order of values without parts. -/
def compareShapes : Shape → Shape → Ordering
  | .bool a, .bool b => Ord.compare a b
  | .int a _, .int b _ => Ord.compare a.toInt b.toInt
  | .uint a _, .uint b _ => Ord.compare a.toNat b.toNat
  | .text s, .text t => Ord.compare s t
  | .handle a, .handle b => Ord.compare a.toNat b.toNat
  | _, _ => .eq

mutual

/-- **The order of two values of one type**, by their contents: part by part, an empty holder before
a full one, and the shorter of two sequences before the longer if it is a beginning of it. -/
def compare : Owned → Owned → Ordering
  | .plain _ s, .plain _ t => compareShapes s t
  | .sequence _ _ vs, .sequence _ _ ws => compareItems vs ws
  | .mapping _ es, .mapping _ fs => compareEntries es fs
  | .record _ _ fs, .record _ _ gs => compareFields fs gs
  | .holder _ none, .holder _ none => .eq
  | .holder _ none, .holder _ (some _) => .lt
  | .holder _ (some _), .holder _ none => .gt
  | .holder _ (some v), .holder _ (some w) => compare v w
  | .lock _ _ v, .lock _ _ w => compare v w
  | .pointer _ v, .pointer _ w => compare v w
  | .shared _ _ v, .shared _ _ w => compare v w
  | .pointer _ v, .shared _ _ w => compare v w
  | .shared _ _ v, .pointer _ w => compare v w
  | .borrowed v, .borrowed w => compare v w
  | _, _ => .eq

/-- Item by item. -/
def compareItems : List Owned → List Owned → Ordering
  | [], [] => .eq
  | [], _ :: _ => .lt
  | _ :: _, [] => .gt
  | v :: vs, w :: ws => (compare v w).then (compareItems vs ws)

/-- Entry by entry, keys first. -/
def compareEntries : List (Owned × Owned) → List (Owned × Owned) → Ordering
  | [], [] => .eq
  | [], _ :: _ => .lt
  | _ :: _, [] => .gt
  | (k, v) :: es, (l, w) :: fs =>
      ((compare k l).then (compare v w)).then (compareEntries es fs)

/-- Field by field. -/
def compareFields :
    List (String × Visibility × Owned) → List (String × Visibility × Owned) → Ordering
  | [], [] => .eq
  | [], _ :: _ => .lt
  | _ :: _, [] => .gt
  | (_, _, v) :: fs, (_, _, w) :: gs => (compare v w).then (compareFields fs gs)

end

/-! ### Layouts -/

/-- **Which part lies at the beginning of a record or of a full holder**, by its position, if one
does.  The order of the parts in memory need not be the one in which they are listed. -/
abbrev Layout := Owned → Option Nat

/-- A reference. -/
def isBorrowed : Owned → Bool
  | .borrowed _ => true
  | _ => false

/-- The parts that lie in a value itself. -/
def inside : Owned → List Owned
  | .sequence _ keeping items => if keeping.fixed then items else []
  | .record _ _ fields => fields.map fun f => f.2.2
  | .holder _ content => content.toList
  | _ => []

/-- The position of the part at the beginning of a value.  The items of a sequence of fixed length
lie side by side in it, so that the first one comes first in memory too; where a reference lies, the
value it leads to does not. -/
def leading? (layout : Layout) (v : Owned) : Option Nat :=
  let position :=
    match v with
    | .sequence _ _ _ => some 0
    | _ => layout v
  position.filter fun k => (v.inside[k]?).any fun part => !part.isBorrowed

/-- The layout in which nothing is known but that the only part of a record fills it. -/
def soleParts : Layout
  | .record _ _ [_] => some 0
  | _ => none

/-! ### Placing -/

/-- Where the addresses of nodes begin. -/
def addressBase : Nat := 0x7f0000000000

/-- The distance of the addresses of neighbouring nodes. -/
def addressStep : Nat := 16

/-- **The address of a node with nothing at its beginning.** -/
def addressOf (id : NodeId) : Address :=
  UInt64.ofNat (addressBase + addressStep * id)

/-- What placing a value keeps: the graph so far, the allocations with labels, and what lies at the
beginning of wholes. -/
structure Placement where
  graph : Graph := {}
  labels : List (String × NodeId) := []
  starts : List (NodeId × NodeId) := []

/-- **What lies at the very beginning of a node**: the node itself, or what lies at the beginning of
its part there. -/
def Placement.start (p : Placement) (id : NodeId) : NodeId :=
  (p.starts.lookup id).getD id

/-- Steps of placing. -/
abbrev Placing := StateM Placement

/-- Adds a node that may depend on its own number. -/
def addNode (node : NodeId → Node) : Placing NodeId := do
  let p ← get
  let (id, g) := p.graph.add (node p.graph.size)
  set { p with graph := g }
  pure id

/-- Adds a node. -/
def add (name : String) (shape : Shape) : Placing NodeId :=
  addNode fun _ => { shape := shape, typeName := name }

/-- Adds a whole, with one of its parts at its beginning or none. -/
def addWhole (node : Node) (first : Option NodeId) : Placing NodeId := do
  let id ← addNode fun _ => node
  match first with
  | none => pure id
  | some part => do
      modify fun p => { p with starts := (id, p.start part) :: p.starts }
      pure id

/-- Adds an indirection to a node. -/
def addPointer (name : String) (target : NodeId) : Placing NodeId := do
  let p ← get
  add name (.pointer (addressOf (p.start target)) (some target))

/-- Adds an indirection to an allocation in which nothing lies that is known. -/
def addElsewhere (name : String) (target : NodeId) : Placing NodeId := do
  let slot ← addNode fun _ => Graph.missing
  add name (.pointer (addressOf slot) (some target))

/-- Adds an indirection to an allocation that holds a value, or a reference to it. -/
def pointTo (name : String) (v : Owned) (target : NodeId) : Placing NodeId :=
  if v.isBorrowed then addElsewhere name target else addPointer name target

/-- Gives the indirections to an allocation the address of what lies at its beginning. -/
def settle (g : Graph) (allocation start : NodeId) : Graph :=
  ⟨(g.nodes.toList.map fun n =>
    if n.shape = .pointer (addressOf allocation) (some allocation) then
      { n with shape := .pointer (addressOf start) (some allocation) }
    else n).toArray⟩

/-- The bytes of nodes that are integers. -/
def bytesOf (g : Graph) (ids : List NodeId) : List UInt8 :=
  ids.filterMap fun id => (g.shape id).toByte?

/-- A sequence of nodes of a graph. -/
def sequenceOf (g : Graph) (name : String) (keeping : Keeping) (ids : List NodeId) : Node :=
  let bytes := if keeping.contiguousBytes then some (bytesOf g ids) else none
  let elements := (Sequence.ofItems ids).withCapacity (keeping.capacity.getD 0)
  let elements := { elements with bytes := bytes }
  { shape := if keeping.fixed then .array elements else .slice (some elements), typeName := name }

mutual

/-- **Adds an owned value to a graph.**  The parts come before the whole. -/
def place (layout : Layout) : Owned → Placing NodeId
  | .plain name shape => add name shape
  | .error name description =>
      addNode fun id =>
        { shape := .handle (addressOf id), typeName := name, capability := .error description }
  | .document v => do
      let p ← get
      let (id, g) := v.place.run p.graph
      set { p with graph := g }
      pure id
  | .sequence name keeping items => do
      let ids ← placeItems layout items
      let p ← get
      addWhole (sequenceOf p.graph name keeping ids)
        ((leading? layout (.sequence name keeping items)).bind (ids[·]?))
  | .mapping name entries => do
      let es ← placeEntries layout entries
      add name (.map (some es))
  | .record name capability fields => do
      let fs ← placeFields layout fields
      addWhole { shape := .record fs, typeName := name, capability := capability }
        ((leading? layout (.record name capability fields)).bind ((fs.map Field.value)[·]?))
  | .holder name none => add name (.holder none)
  | .holder name (some v) => do
      let id ← place layout v
      addWhole { shape := .holder (some id), typeName := name }
        ((leading? layout (.holder name (some v))).bind ([id][·]?))
  | .lock name kind v => do
      let content ← place layout v
      addNode fun id =>
        { shape := .guarded (addressOf id) (some content) kind, typeName := name }
  | .dangling name => add name (.pointer 0 none)
  | .pointer name v => do
      let id ← place layout v
      pointTo name v id
  | .shared name label v => do
      let id ← place layout v
      let pointer ← pointTo name v id
      modify fun p => { p with labels := (label, id) :: p.labels }
      pure pointer
  | .knot name label v => do
      let id ← addNode fun _ => Graph.missing
      modify fun p => { p with labels := (label, id) :: p.labels }
      let content ← place layout v
      -- where the allocation begins is known only now that its content is placed
      modify fun p =>
        { p with
          graph := settle (p.graph.put id (p.graph.node content)) id (p.start content)
          starts := (id, p.start content) :: p.starts }
      addPointer name id
  | .link name label => do
      match (← get).labels.lookup label with
      | some id => addPointer name id
      | none => add name (.pointer 0 none)
  | .view name target => addElsewhere name target
  | .borrowed v => place layout v

/-- Adds the items of a sequence. -/
def placeItems (layout : Layout) : List Owned → Placing (List NodeId)
  | [] => pure []
  | v :: rest => do
      let id ← place layout v
      let ids ← placeItems layout rest
      pure (id :: ids)

/-- Adds the entries of a map. -/
def placeEntries (layout : Layout) : List (Owned × Owned) → Placing (List Entry)
  | [] => pure []
  | (k, v) :: rest => do
      let key ← place layout k
      let value ← place layout v
      let entries ← placeEntries layout rest
      pure (⟨key, value⟩ :: entries)

/-- Adds the fields of a record. -/
def placeFields (layout : Layout) : List (String × Visibility × Owned) → Placing (List Field)
  | [] => pure []
  | (name, visibility, v) :: rest => do
      let value ← place layout v
      let fields ← placeFields layout rest
      pure (⟨name, value, visibility⟩ :: fields)

end

/-- Adds an owned value, with labels of its own. -/
def placeAlone (layout : Layout) (v : Owned) : Placing NodeId := do
  modify fun p => { p with labels := [] }
  place layout v

/-- **Adds owned values one after another.** -/
def placeAll (layout : Layout) (vs : List Owned) : Placing (List NodeId) :=
  vs.mapM (placeAlone layout)

/-- Adds an owned value to a graph. -/
def placeIn (layout : Layout) (v : Owned) : StateM Graph NodeId := fun g =>
  let (id, p) := (placeAlone layout v).run { graph := g }
  (id, p.graph)

end Owned

end ValueLens
