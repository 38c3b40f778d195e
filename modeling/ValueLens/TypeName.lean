/-
**Short type names.**

A full type name spells every type with the path to the module that declares it, the steps of the
path divided by double colons.  The short name keeps the last step of each path and everything
between the paths.

Main definitions:

* `ValueLens.TypeName.isWordChar` — the characters of a step;
* `ValueLens.TypeName.short` — the short name.
-/
import ValueLens.Text.Alphanumeric

set_option relaxedAutoImplicit false
set_option autoImplicit false

namespace ValueLens.TypeName

/-- Letters, numbers and the underscore make up a word. -/
def isWordChar (c : Char) : Bool :=
  Text.isAlphanumeric c || c == '_'

/-- The loop behind `short`.  The word read last is kept aside, latest character first: a double
colon drops it, and any other character lets it through. -/
def shortFrom (word : List Char) : List Char → List Char
  | [] => word.reverse
  | ':' :: ':' :: rest => shortFrom [] rest
  | c :: rest =>
      if isWordChar c then shortFrom (c :: word) rest
      else word.reverse ++ c :: shortFrom [] rest

/-- **The name without the paths to its types.** -/
def short (name : String) : String :=
  String.ofList (shortFrom [] name.toList)

end ValueLens.TypeName
