/-
**Sinks that may fail.**

A text sink takes one write after another and may refuse any of them, having taken a part of it.
What is written and logged is a dialogue: a text is offered, the sink says whether it took all of
it, and what comes next may depend on that.

Main definitions:

* `ValueLens.Sink` — a sink with a state;
* `ValueLens.Sink.boundless`, `ValueLens.Sink.limited` — sinks that take everything, and up to a
  number of bytes;
* `ValueLens.Formatting` — the pieces in which a formatted argument is written;
* `ValueLens.Dialogue` — texts that are offered and events that are logged, with its monad;
* `ValueLens.Dialogue.run` — how a dialogue with a sink came out.
-/
import ValueLens.Trace

set_option relaxedAutoImplicit false
set_option autoImplicit false

namespace ValueLens

/-! ### Sinks -/

/-- **A sink**: what it becomes by a write, and whether it took all of it. -/
structure Sink (σ : Type) where
  write : σ → String → σ × Bool

namespace Sink

/-- A sink that takes everything. -/
def boundless : Sink Unit where
  write _ _ := ((), true)

/-- The leading characters that fit into a number of bytes. -/
def fitting : Nat → List Char → List Char
  | _, [] => []
  | room, c :: rest => if c.utf8Size ≤ room then c :: fitting (room - c.utf8Size) rest else []

/-- **A sink with room for a number of bytes**, which keeps whole characters. -/
def limited (room : Nat) : Sink String where
  write taken s :=
    let free := room - taken.utf8ByteSize
    if s.utf8ByteSize ≤ free then (taken ++ s, true)
    else (taken ++ String.ofList (fitting free s.toList), false)

end Sink

/-- **How formatted arguments are written**: a number or a quoted text comes in pieces, and which
pieces these are is up to the formatting. -/
structure Formatting where
  pieces : String → List String
  join_pieces (text : String) : String.join (pieces text) = text

/-- Every argument in one piece. -/
def Formatting.whole : Formatting where
  pieces text := [text]
  join_pieces text := by simp [String.join]

/-! ### Dialogues -/

/-- **A dialogue with a sink.** -/
inductive Dialogue (α : Type) where
  | done (result : α)
  /-- A text is offered; what follows depends on whether all of it was taken. -/
  | offer (text : String) (next : Bool → Dialogue α)
  | log (event : LogEvent) (next : Dialogue α)

namespace Dialogue

variable {α β : Type}

/-- One dialogue after another. -/
protected def bind : Dialogue α → (α → Dialogue β) → Dialogue β
  | .done a, k => k a
  | .offer text next, k => .offer text fun taken => (next taken).bind k
  | .log event next, k => .log event (next.bind k)

instance : Monad Dialogue where
  pure := .done
  bind := Dialogue.bind

/-- Offers a text, and tells whether it was taken. -/
def ask (text : String) : Dialogue Bool := .offer text .done

/-- Logs some events. -/
def notes : List LogEvent → Dialogue Unit
  | [] => .done ()
  | event :: rest => .log event (notes rest)

end Dialogue

/-- **How a dialogue with a sink came out**: the sink afterwards, the texts that were offered to it,
the events that were logged, and the result. -/
structure Report (σ α : Type) where
  sink : σ
  writes : List String
  logs : List LogEvent
  result : α
  deriving Repr

/-- **A dialogue with a sink.** -/
def Dialogue.run {σ α : Type} (w : Sink σ) (state : σ) : Dialogue α → Report σ α
  | .done a => ⟨state, [], [], a⟩
  | .offer text next =>
      let (state, taken) := w.write state text
      let report := (next taken).run w state
      { report with writes := text :: report.writes }
  | .log event next =>
      let report := next.run w state
      { report with logs := event :: report.logs }

end ValueLens
