/-
**What a computation emits.**

Rendering a value writes text, logs events and takes steps through the graph, all in one order.  A
trace lists these effects and gives the result of the computation, or none if it did not come to an
end within the fuel it was given.  Nothing a computation does depends on what becomes of its
effects.

Main definitions:

* `ValueLens.Effect` — a write, a log event or a step of the walk;
* `ValueLens.Trace` — effects and result, with its monad;
* `ValueLens.Trace.text`, `ValueLens.Trace.logs`, `ValueLens.Trace.steps` — the three views;
* `ValueLens.Trace.captured` — the text as a result instead of an effect.

Main results:

* `ValueLens.Trace.bind_assoc` and its companions — traces form a lawful monad.
-/
import ValueLens.Shape

set_option relaxedAutoImplicit false
set_option autoImplicit false

namespace ValueLens

/-! ### Effects -/

/-- How urgent a log event is. -/
inductive Level where
  | trace
  | debug
  | info
  | warn
  | error
  deriving DecidableEq, Repr

/-- A log event. -/
structure LogEvent where
  level : Level
  message : String
  deriving DecidableEq, Repr

/-- What asking a value for its description came to. -/
inductive Answer where
  | notAsked
  | absent
  | text
  | error
  | panicked
  deriving DecidableEq, Repr

/-- How a chain of indirections ended without a value. -/
inductive Ending where
  | nil
  | cycle (address : Address)
  | unreachable
  deriving DecidableEq, Repr

/-- A step of the walk through a graph. -/
inductive Step where
  /-- A value that is no indirection, and what its capability answered. -/
  | visited (id : NodeId) (answer : Answer)
  /-- A container whose contents are shown. -/
  | entered (id : NodeId)
  /-- A container whose contents the depth limit hides. -/
  | cut (id : NodeId)
  /-- A chain that led to a value. -/
  | reached (id : NodeId)
  /-- A chain that ended without a value. -/
  | ended (ending : Ending)
  deriving DecidableEq, Repr

/-- **One effect of a computation.** -/
inductive Effect where
  | write (text : String)
  | log (event : LogEvent)
  | step (step : Step)
  deriving DecidableEq, Repr

namespace Effect

def text? : Effect → Option String
  | .write s => some s
  | _ => none

def event? : Effect → Option LogEvent
  | .log e => some e
  | _ => none

def step? : Effect → Option Step
  | .step s => some s
  | _ => none

end Effect

/-! ### Traces -/

/-- **The effects of a computation and its result**, which is missing if the computation ran out of
fuel. -/
structure Trace (α : Type) where
  effects : List Effect
  result : Option α
  deriving DecidableEq, Repr

namespace Trace

variable {α β γ : Type}

/-- No effect. -/
protected def pure (a : α) : Trace α := ⟨[], some a⟩

/-- One computation after another; what follows a computation without result does not happen. -/
protected def bind (m : Trace α) (k : α → Trace β) : Trace β :=
  match m.result with
  | none => ⟨m.effects, none⟩
  | some a => ⟨m.effects ++ (k a).effects, (k a).result⟩

instance : Monad Trace where
  pure := Trace.pure
  bind := Trace.bind

@[simp] theorem pure_effects (a : α) : (pure a : Trace α).effects = [] := rfl

@[simp] theorem pure_result (a : α) : (pure a : Trace α).result = some a := rfl

theorem bind_of_none {m : Trace α} (h : m.result = none) (k : α → Trace β) :
    m >>= k = ⟨m.effects, none⟩ := by
  change Trace.bind m k = _
  simp [Trace.bind, h]

theorem bind_of_some {m : Trace α} {a : α} (h : m.result = some a) (k : α → Trace β) :
    m >>= k = ⟨m.effects ++ (k a).effects, (k a).result⟩ := by
  change Trace.bind m k = _
  simp [Trace.bind, h]

theorem pure_bind (a : α) (k : α → Trace β) : (pure a : Trace α) >>= k = k a := by
  rw [bind_of_some (pure_result a)]
  simp

theorem bind_pure (m : Trace α) : m >>= pure = m := by
  cases h : m.result with
  | none => rw [bind_of_none h, ← h]
  | some a =>
      rw [bind_of_some h]
      simp [← h]

theorem bind_assoc (m : Trace α) (k : α → Trace β) (l : β → Trace γ) :
    m >>= k >>= l = m >>= fun a => k a >>= l := by
  cases h : m.result with
  | none =>
      rw [bind_of_none h, bind_of_none h, bind_of_none rfl]
  | some a =>
      rw [bind_of_some h, bind_of_some h]
      cases hk : (k a).result with
      | none => rw [bind_of_none hk, bind_of_none rfl]
      | some b => rw [bind_of_some hk, bind_of_some rfl, List.append_assoc]

instance : LawfulMonad Trace :=
  LawfulMonad.mk' Trace
    (fun m => by
      change Trace.bind m (fun a => Trace.pure (id a)) = m
      exact bind_pure m)
    pure_bind
    bind_assoc

/-! ### Emitting -/

/-- Emits one effect. -/
def emit (e : Effect) : Trace Unit := ⟨[e], some ()⟩

/-- Writes a text. -/
def write (s : String) : Trace Unit := emit (.write s)

/-- Logs an event. -/
def log (level : Level) (message : String) : Trace Unit := emit (.log ⟨level, message⟩)

/-- Notes a step of the walk. -/
def step (s : Step) : Trace Unit := emit (.step s)

/-- The computation that ran out of fuel. -/
def stalled : Trace α := ⟨[], none⟩

/-! ### Views -/

/-- All that was written. -/
def text (m : Trace α) : String := String.join (m.effects.filterMap Effect.text?)

/-- All that was logged. -/
def logs (m : Trace α) : List LogEvent := m.effects.filterMap Effect.event?

/-- The walk that was taken. -/
def steps (m : Trace α) : List Step := m.effects.filterMap Effect.step?

/-- **The text as a result.**  Log events happen all the same; the steps are those of an inner walk
and are dropped. -/
def captured (m : Trace α) : Trace String :=
  ⟨m.effects.filter fun e => e.event?.isSome, m.result.map fun _ => m.text⟩

end Trace

end ValueLens
