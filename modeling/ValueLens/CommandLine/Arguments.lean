/-
**Arguments of the command line.**

The arguments name a command, the files to look at, and options for the command.  An option with a
value takes it from behind an equals sign or from the next argument, which must not look like an
option itself.  No option may be given twice.  After two dashes every argument is a file.  Two
options, the path of a configuration and the level of the log, may also stand before the command;
where they stand on both sides, the ones after the command count.

Main definitions:

* `ValueLens.CommandLine.Setting`, `ValueLens.CommandLine.Switch` — the options with and without a
  value;
* `ValueLens.CommandLine.Given` — the arguments on one side of the command;
* `ValueLens.CommandLine.Invocation.ofArguments` — how the arguments are understood.
-/
import ValueLens.CommandLine.Invocation
import ValueLens.Numeral

set_option relaxedAutoImplicit false
set_option autoImplicit false

namespace ValueLens.CommandLine

/-! ### Options -/

/-- The options with a value. -/
inductive Setting where
  | config
  | logLevel
  | input
  | maxDepth
  | indent
  deriving DecidableEq, Repr

/-- The options without a value. -/
inductive Switch where
  | sortKeys
  | noCapacities
  | noAddresses
  | types
  | fields
  deriving DecidableEq, Repr

/-- The commands. -/
inductive Command where
  | dump
  | format
  deriving DecidableEq, Repr

/-- The command of a name. -/
def Command.ofName? : String → Option Command
  | "dump" => some .dump
  | "format" => some .format
  | _ => none

/-- The option with a value of a long name, before or after the command. -/
def Setting.ofName? (command : Option Command) (name : String) : Option Setting :=
  match name with
  | "config" => some .config
  | "log-level" => some .logLevel
  | "input" => command.map fun _ => .input
  | "max-depth" => command.map fun _ => .maxDepth
  | "indent" => command.map fun _ => .indent
  | _ => none

/-- The option without a value of a long name, after a command. -/
def Switch.ofName? (command : Option Command) (name : String) : Option Switch :=
  match name with
  | "sort-keys" => command.map fun _ => .sortKeys
  | "no-capacities" => command.map fun _ => .noCapacities
  | "no-addresses" => command.map fun _ => .noAddresses
  | "types" => if command = some .format then some .types else none
  | "fields" => if command = some .format then some .fields else none
  | _ => none

/-- A natural number of sixty-four bits, with a plus sign or none. -/
def natOf? (text : String) : Option Nat :=
  let digits :=
    match text.toList with
    | '+' :: rest => rest
    | cs => cs
  if digits.all Char.isDigit then (Numeral.read? 10 digits).filter (· < Nat.pow 2 64) else none

/-- Whether a value suits an option. -/
def Setting.accepts : Setting → String → Bool
  | .config, v => !v.isEmpty
  | .logLevel, _ => true
  | .input, v => (DocumentFormat.ofName? v).isSome
  | .maxDepth, v => (natOf? v).isSome
  | .indent, _ => true

/-! ### Reading arguments -/

/-- **The arguments on one side of the command.** -/
structure Given where
  settings : List (Setting × String) := []
  switches : List Switch := []
  files : List String := []
  deriving DecidableEq, Repr

namespace Given

/-- One option with a value more. -/
def withSetting (g : Given) (s : Setting) (value : String) : Except Stop Given :=
  if (g.settings.lookup s).isSome || !s.accepts value then .error .rejected
  else .ok { g with settings := g.settings ++ [(s, value)] }

/-- One option without a value more. -/
def withSwitch (g : Given) (s : Switch) : Except Stop Given :=
  if g.switches.contains s then .error .rejected
  else .ok { g with switches := g.switches ++ [s] }

/-- Further files, whose names must not be empty. -/
def withFiles (g : Given) (files : List String) : Except Stop Given :=
  if files.any String.isEmpty then .error .rejected
  else .ok { g with files := g.files ++ files }

end Given

/-- One argument by its form. -/
inductive Argument where
  /-- Two dashes alone. -/
  | divider
  /-- An option by its long name, with a value if there is an equals sign. -/
  | long (name : String) (value : Option String)
  /-- An option by its letter and what is written behind it. -/
  | short (letter : Char) (rest : List Char)
  | positional (text : String)
  deriving DecidableEq, Repr

/-- The form of an argument.  A single dash is no option. -/
def Argument.ofText (text : String) : Argument :=
  match text.toList with
  | ['-', '-'] => .divider
  | '-' :: '-' :: rest =>
      let name := String.ofList (rest.takeWhile (· != '='))
      match rest.dropWhile (· != '=') with
      | [] => .long name none
      | _ :: value => .long name (some (String.ofList value))
  | '-' :: c :: rest => .short c rest
  | _ => .positional text

/-- The value written behind the letter of an option, with an equals sign or without. -/
def attachedValue : List Char → Option String
  | [] => none
  | '=' :: rest => some (String.ofList rest)
  | rest => some (String.ofList rest)

/-- An option without a value, the version or the help by a long name. -/
def flagNamed (command : Option Command) (g : Given) (name : String) : Except Stop Given :=
  if name = "help" then .error .help
  else if name = "version" && command.isNone then .error .version
  else
    match Switch.ofName? command name with
    | some s => g.withSwitch s
    | none => .error .rejected

/-- Reads arguments from left to right.  Before the command the first argument that is no option
ends the reading, and it and the rest are given back. -/
def readArguments (command : Option Command) (g : Given) :
    List String → Except Stop (Given × List String)
  | [] => .ok (g, [])
  | text :: rest =>
      match Argument.ofText text with
      | .divider => do
          if command.isNone then throw .rejected
          let g ← g.withFiles rest
          pure (g, [])
      | .positional text =>
          if command.isNone then .ok (g, text :: rest)
          else do
            let g ← g.withFiles [text]
            readArguments command g rest
      | .long name value =>
          match Setting.ofName? command name, value with
          | some s, some v => do
              let g ← g.withSetting s v
              readArguments command g rest
          | some s, none => valueNext g s rest
          | none, some _ => .error .rejected
          | none, none => do
              let g ← flagNamed command g name
              readArguments command g rest
      | .short letter behind =>
          if letter = 'c' then
            match attachedValue behind with
            | some v => do
                let g ← g.withSetting .config v
                readArguments command g rest
            | none => valueNext g .config rest
          else if letter = 'h' then .error .help
          else if letter = 'V' && command.isNone then .error .version
          else .error .rejected
where
  /-- Takes the value of an option from the next argument. -/
  valueNext (g : Given) (s : Setting) : List String → Except Stop (Given × List String)
    | [] => .error .rejected
    | v :: rest =>
        match Argument.ofText v with
        | .positional v => do
            let g ← g.withSetting s v
            readArguments command g rest
        | _ => .error .rejected

/-! ### Invocations -/

namespace Invocation

/-- What a command with its arguments asks for. -/
def ofGiven (command : Command) (g : Given) (configPath : Option String) : Invocation :=
  let has (s : Switch) : Bool := g.switches.contains s
  { action :=
      match command with
      | .dump => .dump
      | .format => .format (has .types) (has .fields)
    overrides :=
      { maxDepth := (g.settings.lookup .maxDepth).bind natOf?
        indent := g.settings.lookup .indent
        sortKeys := has .sortKeys
        hideCapacities := has .noCapacities
        hideAddresses := has .noAddresses }
    input := ((g.settings.lookup .input).bind DocumentFormat.ofName?).getD .auto
    files := g.files
    configPath := configPath }

/-- The path of the configuration: given after the command, before it, or preset.  An empty preset
path is refused unless a path is given on both sides. -/
def configPath? (before after : Given) (preset : Option String) :
    Except Stop (Option String) :=
  let first := before.settings.lookup .config
  let second := after.settings.lookup .config
  if preset = some "" && (first.isNone || second.isNone) then .error .rejected
  else .ok ((second.or first).or preset)

/-- **How the arguments are understood**, with a preset path of a configuration. -/
def ofArguments (preset : Option String) (arguments : List String) :
    Except Stop Invocation := do
  let (before, rest) ← readArguments none {} arguments
  match rest with
  | [] => throw .rejected
  | name :: rest =>
      match Command.ofName? name with
      | none => throw (if name = "help" then .help else .rejected)
      | some command =>
          let (after, _) ← readArguments (some command) {} rest
          let path ← configPath? before after preset
          pure (ofGiven command after path)

end Invocation

end ValueLens.CommandLine
