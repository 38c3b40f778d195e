/-
**The state of a render.**

One render walks a graph under a configuration.  While it does, it keeps the addresses of the
indirections between the root and the value at hand, holds the locks it has acquired on the way,
counts the open containers, remembers whether it came through a private field, and has two flags
that suppress the next type name and the next indentation.

Main definitions:

* `ValueLens.Scene` — what a render looks at and cannot change;
* `ValueLens.RenderState` — what it keeps;
* `ValueLens.Render` — computations over the state that emit effects;
* `ValueLens.RenderState.hookAllowed` — whether values may be asked to describe themselves.
-/
import ValueLens.Config
import ValueLens.Graph
import ValueLens.Trace

set_option relaxedAutoImplicit false
set_option autoImplicit false

namespace ValueLens

/-- **What a render looks at.**  An open hatch lets it read raw byte views and ask private data. -/
structure Scene where
  graph : Graph
  config : Config := {}
  hatchOpen : Bool := true

/-- The scene for one who comes while the locks of some addresses are held. -/
def Scene.holding (s : Scene) (held : List Address) : Scene :=
  { s with graph := s.graph.holding held }

/-- The log message when the hatch is set. -/
def Scene.hatchMessage (isOpen : Bool) : String :=
  "Unsafe introspection hatch " ++ if isOpen then "opened" else "closed"

/-- **What a render keeps.** -/
structure RenderState where
  /-- The addresses of the indirections on the way from the root, latest first. -/
  path : List Address := []
  /-- How many containers are open. -/
  depth : Nat := 0
  /-- Suppresses the next type name. -/
  skipType : Bool := false
  /-- Suppresses the next indentation. -/
  skipIndent : Bool := false
  /-- Whether the way from the root passes through a private field. -/
  inPrivate : Bool := false
  /-- The addresses of the exclusive locks that are held, latest first. -/
  held : List Address := []
  deriving DecidableEq, Repr

namespace RenderState

/-- Whether the value at hand may be asked to describe itself. -/
def hookAllowed (s : Scene) (st : RenderState) : Bool :=
  !s.config.disableMethods && (!st.inPrivate || s.hatchOpen)

/-- Takes addresses off the path. -/
def leave (st : RenderState) (addresses : List Address) : RenderState :=
  { st with path := addresses.foldl List.erase st.path }

end RenderState

/-- **Computations over the state of a render.** -/
abbrev Render := StateT RenderState Trace

namespace Render

/-- Writes a text. -/
def write (text : String) : Render Unit := (Trace.write text : Trace Unit)

/-- Logs an event. -/
def log (level : Level) (message : String) : Render Unit := (Trace.log level message : Trace Unit)

/-- Notes a step of the walk. -/
def step (s : Step) : Render Unit := (Trace.step s : Trace Unit)

/-- The render that ran out of fuel. -/
def stalled {α : Type} : Render α := (Trace.stalled : Trace α)

/-- Sets or clears the suppression of the next type name. -/
def setSkipType (b : Bool) : Render Unit := modify fun st => { st with skipType := b }

/-- Sets or clears the suppression of the next indentation. -/
def setSkipIndent (b : Bool) : Render Unit := modify fun st => { st with skipIndent := b }

/-- A part for which further locks are held. -/
def holding (locks : List Address) (m : Render Unit) : Render Unit := do
  let outer := (← get).held
  modify fun st => { st with held := locks ++ outer }
  m
  modify fun st => { st with held := outer }

/-- A part that is private if its field is, or what is around it. -/
def secretly (hidden : Bool) (m : Render Unit) : Render Unit := do
  let outer := (← get).inPrivate
  modify fun st => { st with inPrivate := outer || hidden }
  m
  modify fun st => { st with inPrivate := outer }

/-- A render from the initial state. -/
def fromStart {α : Type} (m : Render α) : Trace α := m.run' {}

end Render

end ValueLens
