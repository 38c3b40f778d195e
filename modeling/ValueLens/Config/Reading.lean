/-
**Reading configurations.**

A configuration is written as a mapping from the names of settings.  Settings that are left out keep
their defaults, unknown ones are passed over, and a known one must not be given twice.  A text takes
any scalar as it is written.  Truth values and numbers must be plain, or literal with the tag of
their kind.  A text without a document is the default configuration.

Main definitions:

* `ValueLens.Config.withSetting?` — a configuration with one setting changed;
* `ValueLens.Config.ofTree?`, `ValueLens.Config.parse?` — the configuration of a tree and of a
  text;
* `ValueLens.Config.read` — the configuration of a text by any parser, validated.
-/
import ValueLens.Failure
import ValueLens.Parsers
import ValueLens.Yaml.Reader

set_option relaxedAutoImplicit false
set_option autoImplicit false

namespace ValueLens.Config

/-! ### Values of settings -/

/-- The node itself, or the one that an alias stands for. -/
def resolved? (anchors : Yaml.Anchors) : Yaml.Tree Nat → Option (Yaml.Tree Nat)
  | .alias label => anchors.node? label
  | n => some n

/-- A text: any scalar. -/
def textOf? (anchors : Yaml.Anchors) (n : Yaml.Tree Nat) : Option String := do
  match ← resolved? anchors n with
  | .scalar _ _ text => pure text
  | _ => none

/-- The text of a scalar that may be read as a value of a kind. -/
def literalOf? (anchors : Yaml.Anchors) (kind : String) (n : Yaml.Tree Nat) : Option String := do
  match ← resolved? anchors n with
  | .scalar _ .plain text => pure text
  | .scalar p .literal text => if p.tag = some (Yaml.standardTag kind) then pure text else none
  | _ => none

/-- A truth value. -/
def boolOf? (anchors : Yaml.Anchors) (n : Yaml.Tree Nat) : Option Bool := do
  Yaml.bool? (← literalOf? anchors "bool" n)

/-- A natural number of sixty-four bits. -/
def natOf? (anchors : Yaml.Anchors) (n : Yaml.Tree Nat) : Option Nat := do
  let k ← Yaml.unsigned? (← literalOf? anchors "int" n)
  if k < Nat.pow 2 64 then pure k else none

/-- Whether a node is left out or could as well be. -/
def isBlankTree : Yaml.Tree Nat → Bool
  | .scalar _ style text => style = .plain && text.isEmpty
  | _ => false

/-- A list of texts, empty if it is left out. -/
def textsOf? (anchors : Yaml.Anchors) (n : Yaml.Tree Nat) : Option (List String) := do
  match ← resolved? anchors n with
  | .sequence _ items => items.mapM (textOf? anchors)
  | n => if isBlankTree n then pure [] else none

/-! ### Settings -/

/-- The names of the settings. -/
def settingNames : List String :=
  ["indent", "max_depth", "disable_methods", "disable_guard_resolution",
   "disable_pointer_addresses", "disable_capacities", "continue_on_method", "sort_keys",
   "echo_keys", "break_on_error", "byte_element_types"]

/-- **The configuration with one setting changed.**  Unknown settings are passed over. -/
def withSetting? (anchors : Yaml.Anchors) (c : Config) (name : String) (n : Yaml.Tree Nat) :
    Option Config :=
  match name with
  | "indent" => (textOf? anchors n).map fun s => { c with indent := s }
  | "max_depth" => (natOf? anchors n).map fun k => { c with maxDepth := k }
  | "disable_methods" => (boolOf? anchors n).map fun b => { c with disableMethods := b }
  | "disable_guard_resolution" =>
      (boolOf? anchors n).map fun b => { c with disableGuardResolution := b }
  | "disable_pointer_addresses" =>
      (boolOf? anchors n).map fun b => { c with disablePointerAddresses := b }
  | "disable_capacities" => (boolOf? anchors n).map fun b => { c with disableCapacities := b }
  | "continue_on_method" => (boolOf? anchors n).map fun b => { c with continueOnMethod := b }
  | "sort_keys" => (boolOf? anchors n).map fun b => { c with sortKeys := b }
  | "echo_keys" => (boolOf? anchors n).map fun b => { c with echoKeys := b }
  | "break_on_error" => (boolOf? anchors n).map fun b => { c with breakOnError := b }
  | "byte_element_types" => (textsOf? anchors n).map fun ts => { c with byteElementTypes := ts }
  | _ => some c

/-- The configuration with the settings of a mapping; `seen` are the names before it. -/
def withSettings? (anchors : Yaml.Anchors) (seen : List String) (c : Config) :
    List (Yaml.Tree Nat × Yaml.Tree Nat) → Option Config
  | [] => some c
  | (k, v) :: rest => do
      let name ← textOf? anchors k
      if settingNames.contains name && seen.contains name then none
      else withSettings? anchors (name :: seen) (← withSetting? anchors c name v) rest

/-- **The configuration of a tree.** -/
def ofTree? (n : Yaml.Tree Nat) : Option Config :=
  match n with
  | .mapping _ entries => withSettings? n.anchors [] {} entries
  | _ => if isBlankTree n then some {} else none

/-- The configuration of a text, before it is validated. -/
def parse? (text : String) : Option Config := do
  match ← Yaml.document? text with
  | none => pure {}
  | some root =>
      let (tree, _) ← root.numbered?.run []
      ofTree? tree

/-- **The configuration of a text.** -/
def read (p : Parsers) (text : String) : Except Failure Config :=
  match p.config text with
  | none => .error .yaml
  | some c =>
      match c.validate with
      | .error flaw => .error (.config flaw)
      | .ok () => .ok c

end ValueLens.Config
