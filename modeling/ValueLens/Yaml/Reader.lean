/-
**Reading values of indented documents.**

First every anchor gets a number: as many as there are names so far.  An anchor whose name is used
again thereby takes the number that the next new name will get, and the last node of a number is
the one its aliases stand for.  Then the tree is turned into a value, where each alias is replaced
by the value of its node.  The replacements are limited in number and the collections in depth, so
an alias inside its own node is refused.

Main definitions:

* `ValueLens.Yaml.Tree.numbered?` — the tree with numbers for names;
* `ValueLens.Yaml.Anchors` — the nodes that aliases stand for;
* `ValueLens.Yaml.scalarValue?` — the value of a scalar under a tag or none;
* `ValueLens.Yaml.Value.read?` — the value of a text.
-/
import ValueLens.Yaml.Tree
import ValueLens.Yaml.Plain
import ValueLens.Yaml.Value

set_option relaxedAutoImplicit false
set_option autoImplicit false

namespace ValueLens.Yaml

/-! ### Numbers for names -/

/-- The numbers of the names so far. -/
abbrev Names := List (String × Nat)

/-- Gives a name the number of names so far. -/
def Names.assign (names : Names) (name : String) : Nat × Names :=
  let n := names.length
  (n, (name, n) :: names.filter (·.1 != name))

/-- The properties with a number for the name of the anchor. -/
def numberedProperties (p : Properties String) : StateT Names Option (Properties Nat) := do
  match p.anchor with
  | none => pure { tag := p.tag }
  | some name =>
      let (n, names) := (← get).assign name
      set names
      pure { anchor := some n, tag := p.tag }

mutual

/-- **The tree with numbers for names**, in the order of the text.  An alias must come after its
anchor. -/
def Tree.numbered? : Tree String → StateT Names Option (Tree Nat)
  | .alias name => do
      let n ← ((← get).lookup name : Option Nat)
      pure (.alias n)
  | .scalar p style text => do
      let p ← numberedProperties p
      pure (.scalar p style text)
  | .sequence p items => do
      let p ← numberedProperties p
      let items ← numberedItems? items
      pure (.sequence p items)
  | .mapping p entries => do
      let p ← numberedProperties p
      let entries ← numberedEntries? entries
      pure (.mapping p entries)

/-- The items of a sequence. -/
def numberedItems? : List (Tree String) → StateT Names Option (List (Tree Nat))
  | [] => pure []
  | n :: rest => do
      let n ← n.numbered?
      let rest ← numberedItems? rest
      pure (n :: rest)

/-- The entries of a mapping. -/
def numberedEntries? :
    List (Tree String × Tree String) → StateT Names Option (List (Tree Nat × Tree Nat))
  | [] => pure []
  | (k, v) :: rest => do
      let k ← k.numbered?
      let v ← v.numbered?
      let rest ← numberedEntries? rest
      pure ((k, v) :: rest)

end

/-! ### Anchored nodes -/

/-- **The nodes that aliases stand for**, by number; a later node of a number counts. -/
abbrev Anchors := List (Nat × Tree Nat)

/-- The node of a number. -/
def Anchors.node? (anchors : Anchors) (n : Nat) : Option (Tree Nat) :=
  anchors.reverse.lookup n

/-- A node under the number of its anchor, if it has one. -/
def Properties.entry (p : Properties Nat) (n : Tree Nat) : Anchors :=
  (p.anchor.map fun a => (a, n)).toList

mutual

/-- The anchored nodes of a tree, in the order of the text. -/
def Tree.anchors : Tree Nat → Anchors
  | .alias _ => []
  | .scalar p style text => p.entry (.scalar p style text)
  | .sequence p items => p.entry (.sequence p items) ++ itemAnchors items
  | .mapping p entries => p.entry (.mapping p entries) ++ entryAnchors entries

/-- Those of the items of a sequence. -/
def itemAnchors : List (Tree Nat) → Anchors
  | [] => []
  | n :: rest => n.anchors ++ itemAnchors rest

/-- Those of the entries of a mapping. -/
def entryAnchors : List (Tree Nat × Tree Nat) → Anchors
  | [] => []
  | (k, v) :: rest => k.anchors ++ v.anchors ++ entryAnchors rest

end

mutual

/-- How large a tree is: a collection counts at both ends. -/
def Tree.weight : Tree Nat → Nat
  | .alias _ => 1
  | .scalar _ _ _ => 1
  | .sequence _ items => 2 + itemsWeight items
  | .mapping _ entries => 2 + entriesWeight entries

/-- How large the items of a sequence are. -/
def itemsWeight : List (Tree Nat) → Nat
  | [] => 0
  | n :: rest => n.weight + itemsWeight rest

/-- How large the entries of a mapping are. -/
def entriesWeight : List (Tree Nat × Tree Nat) → Nat
  | [] => 0
  | (k, v) :: rest => k.weight + v.weight + entriesWeight rest

end

/-! ### Tags -/

/-- A name without its leading exclamation mark; a mark alone stays. -/
def withoutBang (s : String) : String :=
  match s.toList with
  | '!' :: c :: rest => String.ofList (c :: rest)
  | _ => s

/-- The name of a tag that belongs to the document, without its exclamation mark. -/
def localTag? (tag : Option String) : Option String :=
  match tag with
  | some t => if t.startsWith "!" then some (withoutBang (withoutBang t)) else none
  | none => none

/-- The name of a tag of the standard. -/
def standardTag (name : String) : String :=
  "tag:yaml.org,2002:" ++ name

/-- A meaning as a value. -/
def Meaning.value : Meaning → Value
  | .null => .null
  | .bool b => .bool b
  | .number n => .number n
  | .text s => .text s

/-- The value of a scalar whose tag has been settled: a meaning if it is plain, else its text. -/
def untaggedValue? (style : Style) (text : String) : Option Value :=
  if style = .plain then (Meaning.ofText? text).map Meaning.value else some (.text text)

/-- **The value of a scalar.**  A tag of the standard asks for one kind of value and a tag of the
document stays around the value; any other tag makes a text. -/
def scalarValue? (tag : Option String) (style : Style) (text : String) : Option Value :=
  match localTag? tag with
  | some name => (untaggedValue? style text).map (.tagged name)
  | none =>
      match tag with
      | none => untaggedValue? style text
      | some t =>
          if t == standardTag "bool" then (bool? text).map .bool
          else if t == standardTag "int" then
            (integer? text).bind fun z => (Meaning.ofInteger? z).map Meaning.value
          else if t == standardTag "float" then (float? text).map fun x => .number (.float x)
          else if t == standardTag "null" then (if isNull text then some .null else none)
          else some (.text text)

/-- A collection stays inside the tag of the document. -/
def withLocalTag (tag : Option String) (v : Value) : Value :=
  match localTag? tag with
  | some name => .tagged name v
  | none => v

/-! ### Values -/

/-- How deep collections may nest. -/
def depthLimit : Nat := 128

/-- How many aliases may be replaced for each node of a document. -/
def aliasFactor : Nat := 100

/-- What turning a tree into a value looks at. -/
structure Expansion where
  anchors : Anchors
  aliasLimit : Nat

/-- One alias more is replaced by its node. -/
def Expansion.follow? (e : Expansion) (label : Nat) : StateT Nat Option (Tree Nat) := do
  let count := (← get) + 1
  set count
  if count > e.aliasLimit then failure
  (e.anchors.node? label : Option (Tree Nat))

/-- **The value of a tree** inside of which `levels` collections may nest.  The state counts the
aliases that were replaced. -/
def Expansion.value? (e : Expansion) (levels : Nat) (n : Tree Nat) : StateT Nat Option Value := do
  let n ←
    match n with
    | .alias label => e.follow? label
    | n => pure n
  match n, levels with
  | .alias _, _ => failure
  | .scalar p style text, _ => (scalarValue? p.tag style text : Option Value)
  | .sequence p items, levels + 1 => do
      let vs ← items.mapM (e.value? levels)
      pure (withLocalTag p.tag (.sequence vs))
  | .mapping p entries, levels + 1 => do
      let es ← entries.foldlM (fun acc (k, v) => do
        let key ← e.value? levels k
        if Value.hasKey acc key then failure
        let value ← e.value? levels v
        pure (acc ++ [(key, value)])) []
      pure (withLocalTag p.tag (.mapping es))
  | .sequence _ _, 0 => failure
  | .mapping _ _, 0 => failure

/-- The value of a document. -/
def Tree.value? (root : Tree String) : Option Value := do
  let (tree, _) ← root.numbered?.run []
  let e : Expansion := ⟨tree.anchors, aliasFactor * tree.weight⟩
  (e.value? depthLimit tree).run' 0

/-- **Reads the value of a text.**  A text without a document is null. -/
def Value.read? (text : String) : Option Value := do
  match ← document? text with
  | none => pure .null
  | some root => root.value?

end ValueLens.Yaml
