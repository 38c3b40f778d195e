/-
**Documents to look at.**

A document comes in one of two formats.  If the format is not given, the stricter one is tried
first.

Main definitions:

* `ValueLens.Document` — a document of either format;
* `ValueLens.Document.parse` — the document of a text;
* `ValueLens.Document.place` — the document as a node of a graph;
* `ValueLens.Document.pretty` — the document as indented text.
-/
import ValueLens.Failure
import ValueLens.Json.Printer
import ValueLens.Parsers
import ValueLens.Trace

set_option relaxedAutoImplicit false
set_option autoImplicit false

namespace ValueLens

/-- **A document.** -/
inductive Document where
  | json (value : Json.Value)
  | yaml (value : Yaml.Value)
  deriving Repr

namespace Document

/-- **The document of a text.** -/
def parse (p : Parsers) (format : DocumentFormat) (text : String) : Except Failure Document :=
  let json := (p.json text).map Document.json
  let yaml := (p.yaml text).map Document.yaml
  match format with
  | .json => json.elim (.error .json) .ok
  | .yaml => yaml.elim (.error .yaml) .ok
  | .auto => (json <|> yaml).elim (.error .unsupported) .ok

/-- **Adds a document to a graph.** -/
def place : Document → StateM Graph NodeId
  | .json v => v.place
  | .yaml v => v.place

/-- The log message for a document that has no indented text. -/
def prettyMessage (flaw : Yaml.Value.KeyFlaw) : String :=
  "Could not serialize value for pretty printing: " ++ flaw.message

/-- **The document as indented text.**  It is empty, and the reason is logged, if a key cannot be
the name of a member. -/
def pretty : Document → Trace String
  | .json v => pure v.pretty
  | .yaml v =>
      match v.toJson? with
      | .ok w => pure w.pretty
      | .error flaw => do
          Trace.log .debug (prettyMessage flaw)
          pure ""

end Document

end ValueLens
