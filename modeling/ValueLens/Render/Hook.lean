/-
**Values that describe themselves.**

A value may have a description of its own, which stands in for its structure or, on request, is put
in front of it.  Producing the description may fail; the failure is shown and logged.

Main definitions:

* `ValueLens.Node.describe` — asks a node for its description;
* `ValueLens.Node.consult` — writes the description and tells whether it stands in for the value.
-/
import ValueLens.Render.State

set_option relaxedAutoImplicit false
set_option autoImplicit false

namespace ValueLens

/-- The kind of an answer. -/
def Capability.answer : Capability → Answer
  | .absent => .absent
  | .text _ => .text
  | .error _ => .error
  | .panicked _ => .panicked

/-- The text of an answer, if there is one. -/
def Capability.text? : Capability → Option String
  | .text t => some t
  | .error t => some t
  | .absent => none
  | .panicked _ => none

namespace Node

/-- **Asks a node for its description.**  A failure is logged. -/
def describe (n : Node) : Trace Capability :=
  match n.capability with
  | .panicked message => do
      Trace.log .debug ("Capability of " ++ n.typeName ++ " panicked: " ++ message)
      pure (.panicked message)
  | c => pure c

/-- How a failure is shown in place of a value. -/
def panicMark (message : String) : String := "(PANIC=" ++ message ++ ")"

/-- **Writes the description of a node**, and tells what the answer was and whether it stands in
for the value. -/
def consult (c : Config) (n : Node) : Trace (Answer × Bool) := do
  match ← n.describe with
  | .absent => pure (.absent, false)
  | .panicked message =>
      Trace.write (panicMark message)
      pure (.panicked, true)
  | .text t => description .text t
  | .error t => description .error t
where
  /-- Writes a description, in parentheses if the structure is to follow. -/
  description (answer : Answer) (t : String) : Trace (Answer × Bool) :=
    if c.continueOnMethod then do
      Trace.write ("(" ++ t ++ ") ")
      pure (answer, false)
    else do
      Trace.write t
      pure (answer, true)

end Node

end ValueLens
