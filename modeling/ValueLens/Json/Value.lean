/-
**Documents of objects and arrays.**

A document is null, a truth value, a number, a text, an array of documents or an object, whose
members are documents under names.  Seen as a value, null is an empty holder, an array is a slice
as long as its capacity, and an object is a map from texts.

Main definitions:

* `ValueLens.Json.Value` — the documents;
* `ValueLens.Json.Value.ofMembers` — an object with its members in the order of their names, where
  the last of several members of one name counts;
* `ValueLens.Json.Value.kind` — what a document is called;
* `ValueLens.Json.Value.place` — the document as a node of a graph.
-/
import ValueLens.Graph
import ValueLens.Number

set_option relaxedAutoImplicit false
set_option autoImplicit false

namespace ValueLens.Json

/-- **A document.** -/
inductive Value where
  | null
  | bool (value : Bool)
  | number (value : Number)
  | text (value : String)
  | array (items : List Value)
  | object (members : List (String × Value))
  deriving Repr, Inhabited

namespace Value

/-- Puts a member among members in the order of their names, in place of one of the same name. -/
def putMember (name : String) (value : Value) : List (String × Value) → List (String × Value)
  | [] => [(name, value)]
  | (n, v) :: rest =>
      if name < n then (name, value) :: (n, v) :: rest
      else if name = n then (name, value) :: rest
      else (n, v) :: putMember name value rest

/-- **The object of a list of members.** -/
def ofMembers (members : List (String × Value)) : Value :=
  .object (members.foldl (fun acc (name, value) => putMember name value acc) [])

/-- What a document is called. -/
def kind : Value → String
  | .null => "null"
  | .bool _ => "bool"
  | .number _ => "number"
  | .text _ => "string"
  | .array _ => "array"
  | .object _ => "object"

/-- What the names of members are called. -/
def nameKind : String := "String"

/-! ### Documents as values -/

mutual

/-- **Adds a document to a graph.** -/
def place : Value → StateM Graph NodeId
  | .null => Graph.place { shape := .holder none, typeName := kind .null }
  | .bool b => Graph.place { shape := .bool b, typeName := kind (.bool b) }
  | .number n => Graph.place { shape := n.shape, typeName := kind (.number n) }
  | .text s => Graph.place { shape := .text s, typeName := kind (.text s) }
  | .array items => do
      let ids ← placeItems items
      Graph.place { shape := .slice (some (.ofItems ids)), typeName := kind (.array items) }
  | .object members => do
      let entries ← placeMembers members
      Graph.place { shape := .map (some entries), typeName := kind (.object members) }

/-- Adds the items of an array. -/
def placeItems : List Value → StateM Graph (List NodeId)
  | [] => pure []
  | v :: rest => do
      let id ← place v
      let ids ← placeItems rest
      pure (id :: ids)

/-- Adds the names and values of the members of an object. -/
def placeMembers : List (String × Value) → StateM Graph (List Entry)
  | [] => pure []
  | (name, v) :: rest => do
      let key ← Graph.place { shape := .text name, typeName := nameKind }
      let value ← place v
      let entries ← placeMembers rest
      pure (⟨key, value⟩ :: entries)

end

end Value

end ValueLens.Json
