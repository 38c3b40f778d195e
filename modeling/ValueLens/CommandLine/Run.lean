/-
**Carrying out an invocation.**

The configuration is loaded first, then the overrides are applied, and then every document is
loaded.  Only when all of this has succeeded is anything printed: the dumps of the documents with an
empty line between two of them, or one line for each document.

All of it is for any parsers; those of the program come last.

Main definitions:

* `ValueLens.CommandLine.Surroundings` — the files and the standard input;
* `ValueLens.CommandLine.Abort` — where a run failed and why;
* `ValueLens.CommandLine.Invocation.run` — what a run prints;
* `ValueLens.CommandLine.respond` — the outcome for a list of arguments;
* `ValueLens.CommandLine.parsers` — the parsers of the program.
-/
import ValueLens.CommandLine.Arguments
import ValueLens.Config.Reading
import ValueLens.Document
import ValueLens.Json.Reader
import ValueLens.Render.Walk

set_option relaxedAutoImplicit false
set_option autoImplicit false

namespace ValueLens.CommandLine

/-- **The files and the standard input.**  What cannot be read is missing. -/
structure Surroundings where
  file : String → Option String
  input : Option String := some ""

/-- **Where a run failed and why.** -/
inductive Abort where
  /-- The configuration could not be loaded. -/
  | config (path : String) (cause : Failure)
  /-- The configuration is refused after the overrides. -/
  | options (cause : Failure)
  /-- A document could not be loaded. -/
  | document (label : String) (cause : Failure)
  deriving DecidableEq, Repr

namespace Abort

/-- What failed. -/
def message : Abort → String
  | .config path _ => "Failed to load config from " ++ path
  | .options _ => "Invalid render options"
  | .document label _ => "Failed to parse " ++ label

/-- Why it failed. -/
def cause : Abort → Failure
  | .config _ f => f
  | .options f => f
  | .document _ f => f

end Abort

/-! ### Loading -/

/-- The configuration of a path; without a path it is the default. -/
def loadConfig (p : Parsers) (s : Surroundings) : Option String → Except Abort Config
  | none => .ok {}
  | some path =>
      match s.file path with
      | none => .error (.config path .io)
      | some text => (Config.read p text).mapError (.config path)

/-- The configuration with the overrides, validated. -/
def effectiveConfig (o : Overrides) (c : Config) : Except Abort Config :=
  match (o.apply c).validate with
  | .error flaw => .error (.options (.config flaw))
  | .ok () => .ok (o.apply c)

/-- The text of a source, and the surroundings after it was read: the standard input is empty
then. -/
def readSource (s : Surroundings) : Source → Option String × Surroundings
  | .standardInput => (s.input, { s with input := some "" })
  | .file path => (s.file path, s)

/-- The document of a source. -/
def loadDocument (p : Parsers) (input : DocumentFormat) (source : Source)
    (text : Option String) : Except Abort Document :=
  match text with
  | none => .error (.document source.label .io)
  | some text =>
      (Document.parse p (source.format input) text).mapError (.document source.label)

/-- The documents of all sources, in order. -/
def loadDocuments (p : Parsers) (input : DocumentFormat) :
    Surroundings → List Source → Except Abort (List Document)
  | _, [] => .ok []
  | s, source :: rest => do
      let (text, s) := readSource s source
      let d ← loadDocument p input source text
      let ds ← loadDocuments p input s rest
      pure (d :: ds)

/-! ### Printing -/

/-- What is printed for documents. -/
def printed (action : Action) (c : Config) (documents : List Document) : String :=
  let (ids, g) := (documents.mapM Document.place).run {}
  let scene : Scene := { graph := g, config := c }
  match action with
  | .dump => (scene.dump ids).text
  | .format types details =>
      String.join (ids.map fun id => (scene.render types details id).result.getD "" ++ "\n")

/-- **What a run prints.** -/
def Invocation.run (p : Parsers) (s : Surroundings) (i : Invocation) : Except Abort String := do
  let base ← loadConfig p s i.configPath
  let c ← effectiveConfig i.overrides base
  let documents ← loadDocuments p i.input s i.sources
  pure (printed i.action c documents)

/-! ### Outcomes -/

/-- The outcome for a list of arguments. -/
inductive Outcome where
  | printed (text : String)
  | failed (abort : Abort)
  | rejected
  deriving DecidableEq, Repr

namespace Outcome

/-- The exit code. -/
def code : Outcome → Nat
  | .printed _ => 0
  | .failed _ => 1
  | .rejected => 2

/-- What is printed. -/
def output : Outcome → String
  | .printed text => text
  | _ => ""

end Outcome

/-- The name and the version of the program. -/
def versionText : String := "xray 0.3.0\n"

/-- How the program is called. -/
def helpText : String :=
  "Usage: xray [OPTIONS] <dump|format> [OPTIONS] [FILE]...\n"

/-- **The outcome for a list of arguments.** -/
def respond (p : Parsers) (s : Surroundings) (preset : Option String)
    (arguments : List String) : Outcome :=
  match p.arguments preset arguments with
  | .error .rejected => .rejected
  | .error .version => .printed versionText
  | .error .help => .printed helpText
  | .ok i =>
      match i.run p s with
      | .error abort => .failed abort
      | .ok text => .printed text

/-- The paths that an invocation reads. -/
def Invocation.paths (i : Invocation) : List String :=
  i.configPath.toList ++ i.sources.filterMap fun source =>
    match source with
    | .file path => some path
    | .standardInput => none

/-- **The parsers of the program.** -/
def parsers : Parsers where
  json := Json.Value.read?
  yaml := Yaml.Value.read?
  config := Config.parse?
  arguments := Invocation.ofArguments

end ValueLens.CommandLine
