/-
**Trees of nodes.**

The tokens of a stream form at most one document, and a document is a tree: scalars, sequences and
mappings, each with an anchor and a tag if it has them, and aliases, which stand for anchored nodes
by their labels.  A node that is left out is an empty plain scalar.

Main definitions:

* `ValueLens.Yaml.Tree` — a tree over a type of labels;
* `ValueLens.Yaml.Handles` — what the handles of tags stand for;
* `ValueLens.Yaml.Tree.at?` — the node at the front of a list of tokens;
* `ValueLens.Yaml.document?` — the document of a text.
-/
import ValueLens.Yaml.Lexer

set_option relaxedAutoImplicit false
set_option autoImplicit false

namespace ValueLens.Yaml

/-- The anchor and the tag of a node. -/
structure Properties (ι : Type) where
  anchor : Option ι := none
  tag : Option String := none
  deriving DecidableEq, Repr

/-- **A tree of nodes** whose anchors and aliases are labels. -/
inductive Tree (ι : Type) where
  | alias (label : ι)
  | scalar (properties : Properties ι) (style : Style) (text : String)
  | sequence (properties : Properties ι) (items : List (Tree ι))
  | mapping (properties : Properties ι) (entries : List (Tree ι × Tree ι))
  deriving Repr

/-- A node that is left out. -/
def Tree.empty : Tree String := .scalar {} .plain ""

/-! ### Tags -/

/-- What the handles of tags stand for. -/
abbrev Handles := List (String × String)

/-- The handles that every document has. -/
def Handles.standard : Handles :=
  [("!", "!"), ("!!", "tag:yaml.org,2002:")]

/-- The tag of a handle and a suffix; without a handle the suffix is the tag. -/
def Handles.tag? (handles : Handles) (handle suffix : String) : Option String :=
  if handle.isEmpty then some suffix else (handles.lookup handle).map (· ++ suffix)

/-- The properties at the front of a list of tokens, in either order. -/
def properties? (handles : Handles) :
    List Token → Option (Properties String × List Token)
  | .anchor a :: .tag h s :: rest => do
      pure ({ anchor := some a, tag := some (← handles.tag? h s) }, rest)
  | .tag h s :: .anchor a :: rest => do
      pure ({ anchor := some a, tag := some (← handles.tag? h s) }, rest)
  | .anchor a :: rest => some ({ anchor := some a }, rest)
  | .tag h s :: rest => do pure ({ tag := some (← handles.tag? h s) }, rest)
  | ts => some ({}, ts)

/-! ### Collections -/

/-- A node may be left out before one of these tokens. -/
def Token.endsBlockItem : Token → Bool
  | .blockEntry | .blockEnd => true
  | _ => false

/-- A key or a value may be left out before one of these tokens. -/
def Token.endsBlockPart : Token → Bool
  | .key | .value | .blockEnd => true
  | _ => false

/-- The same inside brackets, where `close` is the closing one. -/
def Token.endsFlowPart (close : Token) (t : Token) : Bool :=
  t == .flowEntry || t == close

/-- The tokens after the comma before an item that is not the first. -/
def afterComma? (first : Bool) (tokens : List Token) : Option (List Token) :=
  if first then some tokens
  else
    match tokens with
    | .flowEntry :: rest => some rest
    | _ => none

mutual

/-- **The node at the front of a list of tokens**, and the rest.  Block collections stand only in
block positions, and dashes that are not indented only where a mapping expects a part. -/
def Tree.at? (handles : Handles) (fuel : Nat) (block dashes : Bool) (tokens : List Token) :
    Option (Tree String × List Token) :=
  match fuel with
  | 0 => none
  | fuel + 1 =>
      match tokens with
      | .alias name :: rest => some (.alias name, rest)
      | _ => do
          let (p, tokens) ← properties? handles tokens
          let missing : Option (Tree String × List Token) :=
            if p.anchor.isSome || p.tag.isSome then some (.scalar p .plain "", tokens) else none
          match tokens with
          | .scalar style text :: rest =>
              let tag := if p.tag = some "!" then none else p.tag
              pure (.scalar { p with tag := tag } style text, rest)
          | .flowSequenceStart :: rest => do
              let (items, rest) ← flowItems? handles fuel true rest
              pure (.sequence p items, rest)
          | .flowMappingStart :: rest => do
              let (entries, rest) ← flowEntries? handles fuel true rest
              pure (.mapping p entries, rest)
          | .blockSequenceStart :: rest =>
              if block then do
                let (items, rest) ← blockItems? handles fuel rest
                pure (.sequence p items, rest)
              else missing
          | .blockMappingStart :: rest =>
              if block then do
                let (entries, rest) ← blockEntries? handles fuel rest
                pure (.mapping p entries, rest)
              else missing
          | .blockEntry :: _ =>
              if dashes then do
                let (items, rest) ← dashItems? handles fuel tokens
                pure (.sequence p items, rest)
              else missing
          | _ => missing

/-- A node, unless it is left out before one of certain tokens. -/
def Tree.orEmpty? (handles : Handles) (fuel : Nat) (block dashes : Bool) (ends : Token → Bool)
    (tokens : List Token) : Option (Tree String × List Token) :=
  match fuel with
  | 0 => none
  | fuel + 1 =>
      match tokens with
      | [] => Tree.at? handles fuel block dashes tokens
      | t :: _ =>
          if ends t then some (.empty, tokens) else Tree.at? handles fuel block dashes tokens

/-- The items of a block sequence, to its end. -/
def blockItems? (handles : Handles) (fuel : Nat) (tokens : List Token) :
    Option (List (Tree String) × List Token) :=
  match fuel with
  | 0 => none
  | fuel + 1 =>
      match tokens with
      | .blockEntry :: rest => do
          let (item, rest) ← Tree.orEmpty? handles fuel true false Token.endsBlockItem rest
          let (items, rest) ← blockItems? handles fuel rest
          pure (item :: items, rest)
      | .blockEnd :: rest => some ([], rest)
      | _ => none

/-- The items of a sequence whose dashes are not indented, as long as there are dashes. -/
def dashItems? (handles : Handles) (fuel : Nat) (tokens : List Token) :
    Option (List (Tree String) × List Token) :=
  match fuel with
  | 0 => none
  | fuel + 1 =>
      match tokens with
      | .blockEntry :: rest => do
          let ends (t : Token) : Bool := t.endsBlockItem || t.endsBlockPart
          let (item, rest) ← Tree.orEmpty? handles fuel true false ends rest
          let (items, rest) ← dashItems? handles fuel rest
          pure (item :: items, rest)
      | _ => some ([], tokens)

/-- The entries of a block mapping, to its end. -/
def blockEntries? (handles : Handles) (fuel : Nat) (tokens : List Token) :
    Option (List (Tree String × Tree String) × List Token) :=
  match fuel with
  | 0 => none
  | fuel + 1 =>
      match tokens with
      | .key :: rest => do
          let (key, rest) ← Tree.orEmpty? handles fuel true true Token.endsBlockPart rest
          let (value, rest) ←
            match rest with
            | .value :: rest => Tree.orEmpty? handles fuel true true Token.endsBlockPart rest
            | _ => some (.empty, rest)
          let (entries, rest) ← blockEntries? handles fuel rest
          pure ((key, value) :: entries, rest)
      | .blockEnd :: rest => some ([], rest)
      | _ => none

/-- The items of a bracketed sequence, to its end.  A comma goes before each item but the first.  A
key in a sequence makes a mapping of one entry; a key that is left out there takes the token after
it along. -/
def flowItems? (handles : Handles) (fuel : Nat) (first : Bool) (tokens : List Token) :
    Option (List (Tree String) × List Token) :=
  match fuel with
  | 0 => none
  | fuel + 1 =>
      match tokens with
      | .flowSequenceEnd :: rest => some ([], rest)
      | _ => do
          let tokens ← afterComma? first tokens
          let ends := Token.endsFlowPart .flowSequenceEnd
          match tokens with
          | .flowSequenceEnd :: rest => pure ([], rest)
          | .key :: rest => do
              let (key, rest) ←
                match rest with
                | t :: tail =>
                    if t == .value || ends t then some (.empty, tail)
                    else Tree.at? handles fuel false false rest
                | [] => none
              let (value, rest) ←
                match rest with
                | .value :: rest => Tree.orEmpty? handles fuel false false ends rest
                | _ => some (.empty, rest)
              let (items, rest) ← flowItems? handles fuel false rest
              pure (.mapping {} [(key, value)] :: items, rest)
          | _ => do
              let (item, rest) ← Tree.at? handles fuel false false tokens
              let (items, rest) ← flowItems? handles fuel false rest
              pure (item :: items, rest)

/-- The entries of a bracketed mapping, to its end.  A node without a key mark is a key without a
value. -/
def flowEntries? (handles : Handles) (fuel : Nat) (first : Bool) (tokens : List Token) :
    Option (List (Tree String × Tree String) × List Token) :=
  match fuel with
  | 0 => none
  | fuel + 1 =>
      match tokens with
      | .flowMappingEnd :: rest => some ([], rest)
      | _ => do
          let tokens ← afterComma? first tokens
          let ends := Token.endsFlowPart .flowMappingEnd
          match tokens with
          | .flowMappingEnd :: rest => pure ([], rest)
          | .key :: rest => do
              let noKey (t : Token) : Bool := t == .value || ends t
              let (key, rest) ← Tree.orEmpty? handles fuel false false noKey rest
              let (value, rest) ←
                match rest with
                | .value :: rest => Tree.orEmpty? handles fuel false false ends rest
                | _ => some (.empty, rest)
              let (entries, rest) ← flowEntries? handles fuel false rest
              pure ((key, value) :: entries, rest)
          | _ => do
              let (key, rest) ← Tree.at? handles fuel false false tokens
              let (entries, rest) ← flowEntries? handles fuel false rest
              pure ((key, .empty) :: entries, rest)

end

/-! ### Documents -/

/-- What the directives before a document say. -/
structure Prologue where
  versioned : Bool := false
  handles : Handles := []
  deriving DecidableEq, Repr

/-- Whether a document of this version can be read. -/
def isKnownVersion (major minor : Nat) : Bool :=
  major == 1 && (minor == 1 || minor == 2)

/-- The directives at the front of a list of tokens.  There is at most one version and each handle
is given at most once. -/
def prologue? (p : Prologue) : List Token → Option (Prologue × List Token)
  | .version major minor :: rest =>
      if p.versioned || !isKnownVersion major minor then none
      else prologue? { p with versioned := true } rest
  | .handle name replacement :: rest =>
      if (p.handles.lookup name).isSome then none
      else prologue? { p with handles := p.handles ++ [(name, replacement)] } rest
  | rest => some (p, rest)

/-- Whether a document without content ends before these tokens. -/
def endsDocument : List Token → Bool
  | [] => true
  | t :: _ =>
      match t with
      | .version _ _ | .handle _ _ | .documentStart | .documentEnd => true
      | _ => false

/-- Each node takes a token or is left out after one, which bounds the depth of the recursion. -/
def treeFuel (tokens : List Token) : Nat := 4 * tokens.length + 4

/-- **The document of a list of tokens**, or none in an empty stream.  Directives go before a marked
document, and there must not be a second document. -/
def documentOf? (tokens : List Token) : Option (Option (Tree String)) := do
  let (p, rest) ← prologue? {} tokens
  let handles := p.handles ++ Handles.standard
  let finish (root : Tree String) (rest : List Token) : Option (Option (Tree String)) :=
    if (rest.dropWhile (· == .documentEnd)).isEmpty then some (some root) else none
  match rest with
  | .documentStart :: rest =>
      if endsDocument rest then finish .empty rest
      else
        let (root, rest) ← Tree.at? handles (treeFuel rest) true false rest
        finish root rest
  | [] => if tokens.isEmpty then some none else none
  | _ =>
      if tokens.length == rest.length then
        let (root, rest) ← Tree.at? handles (treeFuel rest) true false rest
        finish root rest
      else none

/-- **The document of a text.** -/
def document? (text : String) : Option (Option (Tree String)) := do
  documentOf? (← tokens? text)

end ValueLens.Yaml
