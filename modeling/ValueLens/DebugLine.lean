/-
**Debug lines.**

A debug line puts values behind a label: an error as its description with a mark, another value that
describes itself as its description, records and containers as a dump, and everything else as
compact text.  Logging such a line may be asked to stop the program if it carries an error.

Main definitions:

* `ValueLens.Scene.debugLine` — the line, and whether it carries an error;
* `ValueLens.Scene.logDebug` — logs the line;
* `ValueLens.Scene.logFailure` — logs the error of a failed result;
* `ValueLens.assertion` — logs and stops unless a condition holds;
* `ValueLens.traceLine` — logs a place in a program;
* `ValueLens.Graph.typeLabel` — the type of a value with a star for each pointer.
-/
import ValueLens.Render.Walk

set_option relaxedAutoImplicit false
set_option autoImplicit false

namespace ValueLens

namespace Graph

/-- Whether a value, seen through pointers and holders, is a record or a container; none if the
fuel runs out. -/
def isComposite? (g : Graph) : Nat → NodeId → Option Bool
  | 0, _ => none
  | fuel + 1, id =>
      match g.shape id with
      | .record _ => some true
      | .slice _ => some true
      | .array _ => some true
      | .map _ => some true
      | .pointer _ (some target) => isComposite? g fuel target
      | .holder (some content) => isComposite? g fuel content
      | _ => some false

/-- The loop behind `typeLabel?`. -/
def typeLabelFrom? (g : Graph) : Nat → NodeId → Option String
  | 0, _ => none
  | fuel + 1, id =>
      match g.shape id with
      | .pointer _ (some target) => (typeLabelFrom? g fuel target).map ("*" ++ ·)
      | .holder (some content) => typeLabelFrom? g fuel content
      | .holder none => some "nil"
      | _ => some (g.typeName id)

/-- A chain of pointers and holders that does not lead back to itself passes no node twice. -/
def chainFuel (g : Graph) : Nat := g.size + 1

/-- **The type of a value with a star for each pointer**; an empty holder is nil.  There is none if
the pointers lead back to themselves. -/
def typeLabel? (g : Graph) (id : NodeId) : Option String :=
  g.typeLabelFrom? g.chainFuel id

end Graph

/-- A failure that ends the program. -/
inductive Halt where
  | brokeOnError
  | assertionFailed
  deriving DecidableEq, Repr

/-- The message a program ends with. -/
def Halt.message : Halt → String
  | .brokeOnError => "SIGTRAP: break on error"
  | .assertionFailed => "Assertion failed"

namespace Scene

/-- A text without the line end at its end. -/
def dropLineEnd (t : String) : String :=
  if t.endsWith "\n" then String.ofList t.toList.dropLast else t

/-- The text of a value in a debug line, and whether it is an error. -/
def debugPart (s : Scene) (id : NodeId) : Trace (String × Bool) := do
  let answer ← if s.config.disableMethods then pure .absent else (s.graph.node id).describe
  match answer with
  | .error t => pure ("error: " ++ t, true)
  | .text t => pure (t, false)
  | .panicked message => pure (Node.panicMark message, false)
  | .absent =>
      match s.graph.isComposite? s.graph.chainFuel id with
      | none => Trace.stalled
      | some true => do
          let dumped ← s.dumpText [id]
          pure (dropLineEnd dumped, false)
      | some false => do
          let shown ← s.render false false id
          pure (shown, false)

/-- The texts of values, and whether one is an error. -/
def debugParts (s : Scene) : List NodeId → Trace (List String × Bool)
  | [] => pure ([], false)
  | id :: rest => do
      let (t, isError) ← s.debugPart id
      let (ts, others) ← debugParts s rest
      pure (t :: ts, isError || others)

/-- **The debug line of values**, and whether it carries an error. -/
def debugLine (s : Scene) (ids : List NodeId) : Trace (String × Bool) := do
  let (parts, isError) ← s.debugParts ids
  pure (" ".intercalate ("Debug:" :: parts), isError)

/-- **Logs a debug line.**  If the configuration asks for it, a line that carries an error ends the
program. -/
def logDebug (s : Scene) (ids : List NodeId) : Trace (Option Halt) := do
  let (line, isError) ← s.debugLine ids
  Trace.log .debug line
  if isError && s.config.breakOnError then
    Trace.log .error "SIGTRAP"
    pure (some .brokeOnError)
  else pure none

/-- Logs the error of a failed result under the default configuration; a success logs nothing. -/
def logFailure (s : Scene) : Except NodeId NodeId → Trace Unit
  | .ok _ => pure ()
  | .error id => do
      let _ ← { s with config := {} }.logDebug [id]
      pure ()

end Scene

/-- **Logs and ends the program unless a condition holds.** -/
def assertion (condition : Bool) : Trace (Option Halt) :=
  if condition then pure none
  else do
    let g : Graph := ⟨#[{ shape := .text "Assertion failed", typeName := "str" }]⟩
    let _ ← { graph := g : Scene }.logDebug [0]
    pure (some .assertionFailed)

/-- A place in the text of a program. -/
structure Location where
  file : String
  line : Nat
  column : Nat
  deriving DecidableEq, Repr

/-- A place as it is logged. -/
def Location.label (l : Location) : String :=
  ":".intercalate [l.file, Numeral.decimal l.line, Numeral.decimal l.column]

/-- **Logs the place of its caller**, and gives it back. -/
def traceLine (caller : Location) : Trace Location := do
  Trace.log .debug caller.label
  pure caller

end ValueLens
