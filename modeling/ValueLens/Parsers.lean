/-
**Parsers.**

How a text becomes a document or a configuration, and how arguments become an invocation, is left to
parsers that the program is given.  Nothing else in it depends on which ones they are.

Main definitions:

* `ValueLens.Parsers` — the parsers of the program.
-/
import ValueLens.CommandLine.Invocation
import ValueLens.Json.Value
import ValueLens.Yaml.Value

set_option relaxedAutoImplicit false
set_option autoImplicit false

namespace ValueLens

/-- **The parsers of the program.** -/
structure Parsers where
  json : String → Option Json.Value
  yaml : String → Option Yaml.Value
  /-- A configuration, before it is validated. -/
  config : String → Option Config
  /-- What the arguments ask for, with a preset path of a configuration. -/
  arguments : Option String → List String → Except CommandLine.Stop CommandLine.Invocation

end ValueLens
