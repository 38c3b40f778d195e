/-
**Tokens of indented documents.**

Main definitions:

* `ValueLens.Yaml.Style` — the five ways to write a scalar;
* `ValueLens.Yaml.Token` — the tokens, among them those that only the indentation shows.
-/

set_option relaxedAutoImplicit false
set_option autoImplicit false

namespace ValueLens.Yaml

/-- How a scalar is written. -/
inductive Style where
  | plain
  | singleQuoted
  | doubleQuoted
  | literal
  | folded
  deriving DecidableEq, Repr

/-- **A token.** -/
inductive Token where
  /-- The version that a document asks for. -/
  | version (major minor : Nat)
  /-- A handle of tags and the text it stands for. -/
  | handle (name : String) (replacement : String)
  | documentStart
  | documentEnd
  | blockSequenceStart
  | blockMappingStart
  | blockEnd
  | flowSequenceStart
  | flowSequenceEnd
  | flowMappingStart
  | flowMappingEnd
  /-- A dash before an item. -/
  | blockEntry
  /-- A comma in a bracketed collection. -/
  | flowEntry
  /-- Before a key, spelled or understood. -/
  | key
  /-- A colon before a value. -/
  | value
  | alias (name : String)
  | anchor (name : String)
  | tag (handle : String) (suffix : String)
  | scalar (style : Style) (text : String)
  deriving DecidableEq, Repr

end ValueLens.Yaml
