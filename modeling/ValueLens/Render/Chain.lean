/-
**Chains of indirections.**

Pointers and guards that lead to each other are walked in one go, through dynamic holders, down to
the first value that is no indirection.  Every address on the way joins the path of the render; an
address that is on the path already closes a cycle and ends the chain.  A nil pointer, an empty
holder and a guard that cannot be acquired end it as well.  The locks of a chain are held as long as
what stands at its end is shown.

Main definitions:

* `ValueLens.Shape.isIndirection` — where a chain starts;
* `ValueLens.Link` — how a chain ends;
* `ValueLens.Chain` — what is collected on the way;
* `ValueLens.Chain.walk` — the walk.
-/
import ValueLens.Render.State

set_option relaxedAutoImplicit false
set_option autoImplicit false

namespace ValueLens

/-- Whether a chain of indirections starts at a shape. -/
def Shape.isIndirection (c : Config) : Shape → Bool
  | .pointer _ _ => true
  | .guarded _ _ _ => !c.disableGuardResolution
  | _ => false

/-- **How a chain ended.**  `isPointer` tells a pointer from a guard or an empty holder. -/
inductive Link where
  /-- At a nil pointer or an empty holder. -/
  | nil (typeName : String) (isPointer : Bool)
  /-- At an address that is on the path already: a pointer names its target, a guard itself. -/
  | cycle (typeName : String) (isPointer : Bool) (address : Address)
  /-- At a guard that could not be acquired. -/
  | unreachable (typeName : String)
  /-- At a value that is no indirection. -/
  | value (id : NodeId)
  deriving DecidableEq, Repr

/-- How a chain ended without a value. -/
def Link.ending? : Link → Option Ending
  | .nil _ _ => some .nil
  | .cycle _ _ address => some (.cycle address)
  | .unreachable _ => some .unreachable
  | .value _ => none

/-- **What a chain collects**: the addresses it met, those it put on the path, how many levels count
as stars of the type, and the exclusive locks it has acquired. -/
structure Chain where
  addresses : List Address := []
  entered : List Address := []
  indirects : Nat := 0
  locks : List Address := []
  deriving DecidableEq, Repr

namespace Chain

/-- Adds a level.  The flag tells that the address closes a cycle, and then the level counts as no
indirection. -/
def enter (chain : Chain) (address : Address) : Render (Chain × Bool) := do
  let st ← get
  let met := { chain with addresses := chain.addresses ++ [address] }
  if st.path.contains address then
    Render.log .trace ("Cycle detected at " ++ Scalar.bareAddress address)
    pure (met, true)
  else
    set { st with path := address :: st.path }
    pure ({ met with
            entered := met.entered ++ [address]
            indirects := met.indirects + 1 }, false)

/-- What stands behind an indirection, seen through one dynamic holder: nothing if that holder is
empty. -/
def behind? (g : Graph) (target : NodeId) : Option NodeId :=
  match g.shape target with
  | .holder content => content
  | _ => some target

/-- **Walks a chain to its end.**  The fuel bounds the number of levels; every level puts a new
address on the path, so the size of the graph is enough. -/
def walk (s : Scene) : Nat → Chain → NodeId → Render (Chain × Link)
  | 0, _, _ => Render.stalled
  | fuel + 1, chain, id =>
      let node := s.graph.node id
      match node.shape with
      | .pointer _ none => pure (chain, .nil node.typeName true)
      | .pointer address (some target) => do
          let (chain, closed) ← chain.enter address
          if closed then pure (chain, .cycle (s.graph.typeName target) true address)
          else
            match behind? s.graph target with
            | none => pure (chain, .nil (s.graph.typeName target) false)
            | some next => walk s fuel chain next
      | .guarded address content lock =>
          if s.config.disableGuardResolution then pure (chain, .value id)
          else do
            let (chain, closed) ← chain.enter address
            if closed then pure (chain, .cycle node.typeName false address)
            else
              match (Shape.guarded address content lock).acquire? with
              | none =>
                  Render.log .trace
                    ("Could not acquire " ++ node.typeName ++ " at " ++ Scalar.bareAddress address)
                  pure ({ chain with indirects := chain.indirects - 1 }, .unreachable node.typeName)
              | some target =>
                  match behind? s.graph target with
                  | none => pure (chain, .nil (s.graph.typeName target) false)
                  | some next =>
                      walk s fuel { chain with locks := lock.holds address ++ chain.locks } next
      | _ => pure (chain, .value id)

/-- A bound on the levels of any chain of a graph. -/
def fuel (g : Graph) : Nat := g.size + 2

end Chain

end ValueLens
