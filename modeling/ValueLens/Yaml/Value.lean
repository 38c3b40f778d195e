/-
**Values of indented documents.**

A value is null, a truth value, a number, a text, a sequence, a mapping whose keys are values too,
or a value under a tag.  Seen from outside, a tagged value is a holder that is called by its tag,
and everything else looks as in a document of objects and arrays, but for the keys.

Main definitions:

* `ValueLens.Yaml.Value` — the values;
* `ValueLens.Yaml.Value.same` — when two values are the same key;
* `ValueLens.Yaml.Value.place` — the value as a node of a graph;
* `ValueLens.Yaml.Value.toJson?` — the value as a document of objects and arrays.
-/
import ValueLens.Json.Printer
import ValueLens.Json.Value

set_option relaxedAutoImplicit false
set_option autoImplicit false

namespace ValueLens.Yaml

/-- **A value.** -/
inductive Value where
  | null
  | bool (value : Bool)
  | number (value : Number)
  | text (value : String)
  | sequence (items : List Value)
  | mapping (entries : List (Value × Value))
  /-- A value under a tag, which is kept without its exclamation mark. -/
  | tagged (tag : String) (value : Value)
  deriving Repr, Inhabited

namespace Value

/-! ### Sameness -/

mutual

/-- **Whether two values are the same key.**  The order of the entries of a mapping is of no
account. -/
def same : Value → Value → Bool
  | .null, .null => true
  | .bool a, .bool b => a == b
  | .number m, .number n => m.same n
  | .text s, .text t => s == t
  | .sequence vs, .sequence ws => sameItems vs ws
  | .mapping es, .mapping fs => es.length == fs.length && sameEntries es fs
  | .tagged s v, .tagged t w => s == t && same v w
  | _, _ => false

/-- Item by item. -/
def sameItems : List Value → List Value → Bool
  | [], [] => true
  | v :: vs, w :: ws => same v w && sameItems vs ws
  | _, _ => false

/-- Whether each entry of the first mapping is one of the second. -/
def sameEntries : List (Value × Value) → List (Value × Value) → Bool
  | [], _ => true
  | (k, v) :: rest, fs => (fs.any fun f => same k f.1 && same v f.2) && sameEntries rest fs

end

/-- Whether a key is among the keys of a mapping. -/
def hasKey (entries : List (Value × Value)) (key : Value) : Bool :=
  entries.any fun e => e.1.same key

/-! ### Values as nodes -/

/-- How a tag is written. -/
def tagText (tag : String) : String :=
  "!" ++ tag

/-- What a value is called. -/
def kind : Value → String
  | .null => "null"
  | .bool _ => "bool"
  | .number _ => "number"
  | .text _ => "string"
  | .sequence _ => "array"
  | .mapping _ => "object"
  | .tagged tag _ => tagText tag

mutual

/-- **Adds a value to a graph.** -/
def place : Value → StateM Graph NodeId
  | .null => Graph.place { shape := .holder none, typeName := kind .null }
  | .bool b => Graph.place { shape := .bool b, typeName := kind (.bool b) }
  | .number n => Graph.place { shape := n.shape, typeName := kind (.number n) }
  | .text s => Graph.place { shape := .text s, typeName := kind (.text s) }
  | .sequence items => do
      let ids ← placeItems items
      Graph.place { shape := .slice (some (.ofItems ids)), typeName := kind (.sequence items) }
  | .mapping entries => do
      let es ← placeEntries entries
      Graph.place { shape := .map (some es), typeName := kind (.mapping entries) }
  | .tagged tag v => do
      let id ← place v
      Graph.place { shape := .holder (some id), typeName := kind (.tagged tag v) }

/-- Adds the items of a sequence. -/
def placeItems : List Value → StateM Graph (List NodeId)
  | [] => pure []
  | v :: rest => do
      let id ← place v
      let ids ← placeItems rest
      pure (id :: ids)

/-- Adds the entries of a mapping. -/
def placeEntries : List (Value × Value) → StateM Graph (List Entry)
  | [] => pure []
  | (k, v) :: rest => do
      let key ← place k
      let value ← place v
      let entries ← placeEntries rest
      pure (⟨key, value⟩ :: entries)

end

/-! ### Documents of objects and arrays -/

/-- Why a key cannot be the name of a member. -/
inductive KeyFlaw where
  /-- It is null, a collection or tagged. -/
  | notText
  /-- It is an infinity or a NaN. -/
  | notFinite
  deriving DecidableEq, Repr

/-- The wording of a flaw. -/
def KeyFlaw.message : KeyFlaw → String
  | .notText => "key must be a string"
  | .notFinite => "float key must be finite (got NaN or +/-inf)"

/-- The name of a member for a key. -/
def name? : Value → Except KeyFlaw String
  | .text s => .ok s
  | .bool b => .ok (if b then "true" else "false")
  | .number (.float x) => if x.isFinite then .ok (Json.floatText x) else .error .notFinite
  | .number n => .ok (Json.numberText n)
  | _ => .error .notText

mutual

/-- **The value as a document of objects and arrays.**  A tagged value is an object of one member,
named by its tag. -/
def toJson? : Value → Except KeyFlaw Json.Value
  | .null => .ok .null
  | .bool b => .ok (.bool b)
  | .number n => .ok (.number n)
  | .text s => .ok (.text s)
  | .sequence items => do
      let vs ← itemsToJson? items
      pure (.array vs)
  | .mapping entries => do
      let ms ← entriesToJson? entries
      pure (.object ms)
  | .tagged tag v => do
      let w ← toJson? v
      pure (.object [(tagText tag, w)])

/-- The items of a sequence, in order. -/
def itemsToJson? : List Value → Except KeyFlaw (List Json.Value)
  | [] => .ok []
  | v :: rest => do
      let w ← toJson? v
      let ws ← itemsToJson? rest
      pure (w :: ws)

/-- The entries of a mapping, in order, keys first. -/
def entriesToJson? : List (Value × Value) → Except KeyFlaw (List (String × Json.Value))
  | [] => .ok []
  | (k, v) :: rest => do
      let name ← name? k
      let w ← toJson? v
      let ms ← entriesToJson? rest
      pure ((name, w) :: ms)

end

end Value

end ValueLens.Yaml
