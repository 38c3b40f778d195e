/-
**Graphs of values.**

A graph is a table of nodes.  Nodes may be shared, and chains of children may lead back to where
they started.  A number without a node stands for an invalid value.

Main definitions:

* `ValueLens.Graph` — the table;
* `ValueLens.Graph.node` — the node of a number;
* `ValueLens.Graph.add`, `ValueLens.Graph.put`, `ValueLens.Graph.setBusy` — growing and changing
  the table;
* `ValueLens.Graph.holding` — the table while locks are held.
-/
import ValueLens.Shape

set_option relaxedAutoImplicit false
set_option autoImplicit false

namespace ValueLens

/-- **A table of nodes.** -/
structure Graph where
  nodes : Array Node := #[]
  deriving DecidableEq, Repr

namespace Graph

/-- What stands where no node is. -/
def missing : Node := { shape := .invalid, typeName := "" }

/-- The node of a number. -/
def node (g : Graph) (id : NodeId) : Node :=
  g.nodes.getD id missing

/-- The shape of the node of a number. -/
def shape (g : Graph) (id : NodeId) : Shape :=
  (g.node id).shape

/-- The type name of the node of a number. -/
def typeName (g : Graph) (id : NodeId) : String :=
  (g.node id).typeName

/-- How many nodes there are. -/
def size (g : Graph) : Nat :=
  g.nodes.size

/-- A new node at the end of the table, and its number. -/
def add (g : Graph) (n : Node) : NodeId × Graph :=
  (g.size, ⟨g.nodes.push n⟩)

/-- The same as an action on the table at hand. -/
def place (n : Node) : StateM Graph NodeId :=
  fun g => g.add n

/-- The table with another node under a number it has. -/
def put (g : Graph) (id : NodeId) (n : Node) : Graph :=
  ⟨g.nodes.setIfInBounds id n⟩

/-- Makes a guard busy or free; other nodes stay as they are. -/
def setBusy (g : Graph) (id : NodeId) (busy : Bool) : Graph :=
  match g.node id with
  | { shape := .guarded address content lock, typeName, capability } =>
      g.put id { shape := .guarded address content { lock with busy }, typeName, capability }
  | _ => g

/-- **The table while the locks of some addresses are held.** -/
def holding (g : Graph) (held : List Address) : Graph :=
  ⟨(g.nodes.toList.map fun n => { n with shape := n.shape.holding held }).toArray⟩

end Graph

end ValueLens
