/-
**What can go wrong around rendering.**

Rendering itself never fails.  Loading a configuration or a document may.

Main definitions:

* `ValueLens.Failure` — the causes;
* `ValueLens.Failure.kind` — what a cause is called.
-/
import ValueLens.Config

set_option relaxedAutoImplicit false
set_option autoImplicit false

namespace ValueLens

/-- **Why a configuration or a document could not be loaded.** -/
inductive Failure where
  /-- The configuration is refused. -/
  | config (flaw : Config.Flaw)
  /-- A file could not be read. -/
  | io
  /-- A text in the one format is malformed. -/
  | yaml
  /-- A text in the other format is malformed. -/
  | json
  /-- A text is in neither format. -/
  | unsupported
  deriving DecidableEq, Repr

namespace Failure

/-- What a cause is called. -/
def kind : Failure → String
  | .config _ => "Configuration error"
  | .io => "IO error"
  | .yaml => "YAML error"
  | .json => "JSON error"
  | .unsupported => "Unsupported input"

/-- What a cause is called, with the flaw of a configuration. -/
def message : Failure → String
  | .config flaw => (kind (.config flaw)) ++ ": " ++ flaw.message
  | f => f.kind

end Failure

end ValueLens
