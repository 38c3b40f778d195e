/-
**Invocations.**

What the arguments of the command line ask for: a command with its options, and the inputs to look
at.  The format of an input is the one asked for, or else the one that the name of the input
implies.

Main definitions:

* `ValueLens.DocumentFormat` — the formats, and the choice between them;
* `ValueLens.CommandLine.Source` — where a document comes from;
* `ValueLens.CommandLine.Overrides` — settings that take the place of those of the configuration;
* `ValueLens.CommandLine.Invocation` — what the arguments ask for;
* `ValueLens.CommandLine.Stop` — why they ask for nothing.
-/
import ValueLens.Config

set_option relaxedAutoImplicit false
set_option autoImplicit false

namespace ValueLens

/-- The format of a document. -/
inductive DocumentFormat where
  /-- Whichever fits, the stricter one first. -/
  | auto
  | json
  | yaml
  deriving DecidableEq, Repr

/-- The format of a name. -/
def DocumentFormat.ofName? : String → Option DocumentFormat
  | "auto" => some .auto
  | "json" => some .json
  | "yaml" => some .yaml
  | _ => none

namespace CommandLine

/-- Where a document comes from. -/
inductive Source where
  | standardInput
  | file (path : String)
  deriving DecidableEq, Repr

namespace Source

/-- A dash stands for the standard input. -/
def ofArgument (text : String) : Source :=
  if text = "-" then .standardInput else .file text

/-- What a source is called. -/
def label : Source → String
  | .standardInput => "<stdin>"
  | .file path => path

/-- The extension of a path: what follows the last dot of the last step, if something stands before
it. -/
def extension? (path : String) : Option String :=
  let step := path.toList.reverse.takeWhile (· != '/')
  let tail := step.takeWhile (· != '.')
  if tail.length + 1 < step.length then some (String.ofList tail.reverse) else none

/-- The format that the extension of a file implies. -/
def impliedFormat : Source → DocumentFormat
  | .standardInput => .auto
  | .file path =>
      match extension? path with
      | some "json" => .json
      | some "yml" => .yaml
      | some "yaml" => .yaml
      | _ => .auto

/-- The format of a source: the one asked for, or else the one implied. -/
def format (asked : DocumentFormat) (s : Source) : DocumentFormat :=
  if asked = .auto then s.impliedFormat else asked

end Source

/-- Settings that take the place of those of the configuration. -/
structure Overrides where
  maxDepth : Option Nat := none
  indent : Option String := none
  sortKeys : Bool := false
  hideCapacities : Bool := false
  hideAddresses : Bool := false
  deriving DecidableEq, Repr

/-- The configuration with some settings replaced. -/
def Overrides.apply (o : Overrides) (c : Config) : Config :=
  { c with
    maxDepth := o.maxDepth.getD c.maxDepth
    indent := o.indent.getD c.indent
    sortKeys := o.sortKeys || c.sortKeys
    disableCapacities := o.hideCapacities || c.disableCapacities
    disablePointerAddresses := o.hideAddresses || c.disablePointerAddresses }

/-- What is done with the documents. -/
inductive Action where
  | dump
  | format (types details : Bool)
  deriving DecidableEq, Repr

/-- **What the arguments ask for.** -/
structure Invocation where
  action : Action
  overrides : Overrides := {}
  input : DocumentFormat := .auto
  files : List String := []
  configPath : Option String := none
  deriving DecidableEq, Repr

/-- The inputs of an invocation; without files it is the standard input. -/
def Invocation.sources (i : Invocation) : List Source :=
  if i.files.isEmpty then [.standardInput] else i.files.map Source.ofArgument

/-- Why no command is carried out. -/
inductive Stop where
  /-- The arguments are refused. -/
  | rejected
  /-- They ask for the version. -/
  | version
  /-- They ask for help. -/
  | help
  deriving DecidableEq, Repr

end CommandLine

end ValueLens
