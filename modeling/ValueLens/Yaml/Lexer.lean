/-
**From text to tokens.**

The lexer walks over the text once.  Outside brackets it keeps the indentation of the open block
collections and closes them where the text is indented less.  A scalar, an alias or a bracketed
collection may turn out to be a key when a colon follows on the same line; until then it is a
pending key, one for each open bracket, and the colon puts the tokens of the mapping in front of
it.

Main definitions:

* `ValueLens.Yaml.PendingKey` — what may become a key;
* `ValueLens.Yaml.Lexer` — the state of the walk;
* `ValueLens.Yaml.Lex` — steps of the walk, which may fail;
* `ValueLens.Yaml.tokens?` — the tokens of a text.
-/
import ValueLens.Yaml.ScalarText
import ValueLens.Yaml.Token

set_option relaxedAutoImplicit false
set_option autoImplicit false

namespace ValueLens.Yaml

/-! ### The state -/

/-- **What may become a key.**  A required key stands where only a key can stand. -/
structure PendingKey where
  required : Bool
  /-- How many tokens stand before it. -/
  slot : Nat
  place : Cursor
  deriving DecidableEq, Repr

/-- **The state of the walk.** -/
structure Lexer where
  cursor : Cursor
  tokens : Array Token := #[]
  /-- The indentation of the innermost block collection, minus one outside of all. -/
  indent : Int := -1
  /-- The indentations of the collections around it. -/
  outer : List Int := []
  /-- How many brackets are open. -/
  flow : Nat := 0
  /-- Whether a key may begin here. -/
  keyAllowed : Bool := true
  /-- The pending key of each open bracket, innermost first, and that outside of all. -/
  keys : List (Option PendingKey) := [none]

/-- **Steps of the walk.** -/
abbrev Lex := StateT Lexer Option

namespace Lex

/-- Appends a token. -/
def emit (t : Token) : Lex Unit :=
  modify fun s => { s with tokens := s.tokens.push t }

/-- Moves the cursor by characters of the same line. -/
def skip (n : Nat) : Lex Unit :=
  modify fun s => { s with cursor := s.cursor.skip n }

/-- Puts the cursor elsewhere. -/
def moveTo (c : Cursor) : Lex Unit :=
  modify fun s => { s with cursor := c }

/-- Says whether a key may begin here. -/
def allowKey (b : Bool) : Lex Unit :=
  modify fun s => { s with keyAllowed := b }

/-- Whether no bracket is open. -/
def inBlock : Lex Bool := do
  pure ((← get).flow == 0)

/-! ### Pending keys -/

/-- Gives a pending key up; a required one must not be given up. -/
def released? : Option PendingKey → Option (Option PendingKey)
  | some k => if k.required then none else some none
  | none => some none

/-- Gives up the pending key of the innermost bracket. -/
def dropKey : Lex Unit := do
  match (← get).keys with
  | [] => pure ()
  | k :: rest =>
      let k ← (released? k : Option (Option PendingKey))
      modify fun s => { s with keys := k :: rest }

/-- Makes what stands at the cursor a pending key, if a key may begin here. -/
def saveKey : Lex Unit := do
  let s ← get
  if s.keyAllowed then
    let required := s.flow == 0 && s.indent == (s.cursor.column : Int)
    dropKey
    modify fun t =>
      { t with keys := some ⟨required, s.tokens.size, s.cursor⟩ :: t.keys.tail }

/-- A key is at most so many characters long. -/
def keyLimit : Nat := 1024

/-- Whether the text has left a pending key behind: it is on another line or too far. -/
def isStale (c : Cursor) (k : PendingKey) : Bool :=
  k.place.line < c.line || k.place.index + keyLimit < c.index

/-- Gives up the pending keys that the text has left behind. -/
def dropStaleKeys : Lex Unit := do
  let s ← get
  let keys ← (s.keys.mapM fun k =>
    if k.any (isStale s.cursor) then released? k else some k : Option (List (Option PendingKey)))
  modify fun s => { s with keys := keys }

/-! ### Indentation -/

/-- Opens a block collection if the column is beyond the indentation.  Its first token goes to the
given place, or to the end. -/
def openBlock (column : Nat) (slot : Option Nat) (t : Token) : Lex Unit := do
  let s ← get
  if s.flow == 0 && s.indent < (column : Int) then
    set { s with
      outer := s.indent :: s.outer
      indent := column
      tokens := s.tokens.insertIdxIfInBounds (slot.getD s.tokens.size) t }

/-- Closes indentations beyond a column: how many, and what is left. -/
def unwind (column : Int) : Int → List Int → Nat × Int × List Int
  | indent, [] => (0, indent, [])
  | indent, next :: rest =>
      if column < indent then
        let (n, indent, outer) := unwind column next rest
        (n + 1, indent, outer)
      else (0, indent, next :: rest)

/-- Closes the block collections that are indented beyond a column. -/
def closeBlocks (column : Int) : Lex Unit := do
  let s ← get
  if s.flow == 0 then
    let (n, indent, outer) := unwind column s.indent s.outer
    set { s with
      indent := indent
      outer := outer
      tokens := s.tokens ++ Array.replicate n Token.blockEnd }

/-! ### Blanks and comments -/

/-- The next token: blanks, comments and ends of lines lie before it.  A tab counts as a blank only
where no key may begin.  A new line outside brackets allows a key again. -/
def skipToToken : Nat → Lex Unit
  | 0 => failure
  | fuel + 1 => do
      let s ← get
      let tabs := s.flow != 0 || !s.keyAllowed
      let c := s.cursor.skipWhile fun ch => ch == ' ' || (tabs && ch == '\t')
      let c := if c.isAt (· == '#') then c.skipLine else c
      moveTo (if c.isAt isBreak then c.skipBreak else c)
      if c.isAt isBreak then
        if s.flow == 0 then allowKey true
        skipToToken fuel

/-! ### Directives, anchors and tags -/

/-- A number of at most nine digits. -/
def versionNumber : Lex Nat := do
  let (digits, c) := (← get).cursor.span Char.isDigit
  if digits.length > 9 then failure
  moveTo c
  (Numeral.read? 10 digits : Option Nat)

/-- Characters of tags; commas and brackets only where nothing else delimits the tag. -/
def isTagChar (wide : Bool) (c : Char) : Bool :=
  isNameChar c || ";/?:@&=+$.%!~*'()".toList.contains c || (wide && [',', '[', ']'].contains c)

/-- The bytes of a tag, where a percent sign and two digits stand for one. -/
def tagBytes? : List Char → Option (List UInt8)
  | [] => some []
  | '%' :: a :: b :: rest => do
      let n ← Numeral.read? 16 [a, b]
      let bytes ← tagBytes? rest
      pure (n.toUInt8 :: bytes)
  | c :: rest => if c = '%' then none else (tagBytes? rest).map (c.toUInt8 :: ·)

/-- The characters of a tag at the cursor, after `start`, which were read before. -/
def tagText (wide : Bool) (start : String) : Lex String := do
  let (run, c) := (← get).cursor.span (isTagChar wide)
  moveTo c
  let bytes ← (tagBytes? run : Option (List UInt8))
  let text ← (String.fromUTF8? ⟨bytes.toArray⟩ : Option String)
  pure (start ++ text)

/-- A handle of tags at the cursor: an exclamation mark, a name and perhaps another mark. -/
def tagHandle : Lex String := do
  let c := (← get).cursor
  if !c.isAt (· == '!') then failure
  let (name, c) := (c.skip 1).span isNameChar
  let closed := c.isAt (· == '!')
  moveTo (if closed then c.skip 1 else c)
  pure ("!" ++ String.ofList name ++ if closed then "!" else "")

/-- Whether a handle has a mark at both ends. -/
def isClosedHandle (handle : String) : Bool :=
  handle.length > 1 && handle.endsWith "!"

/-- Blanks, of which there must be one if asked for. -/
def skipBlanks (needed : Bool) : Lex Unit := do
  let c := (← get).cursor
  if needed && !c.isAt isBlank then failure
  moveTo (c.skipWhile isBlank)

/-- The word must end here. -/
def needEnd : Lex Unit := do
  if !endsWord (← get).cursor.head? then failure

/-- The rest of the line of a directive: at most a comment. -/
def finishLine : Lex Unit := do
  skipBlanks false
  let c := (← get).cursor
  let c := if c.isAt (· == '#') then c.skipLine else c
  if !(c.atEnd || c.isAt isBreak) then failure
  moveTo c.skipBreak

/-- A directive: the version of a document or a handle of its tags. -/
def directive : Lex Unit := do
  closeBlocks (-1)
  dropKey
  allowKey false
  let (name, c) := ((← get).cursor.skip 1).span isNameChar
  moveTo c
  needEnd
  match String.ofList name with
  | "YAML" => do
      skipBlanks false
      let major ← versionNumber
      if !(← get).cursor.isAt (· == '.') then failure
      skip 1
      let minor ← versionNumber
      emit (.version major minor)
  | "TAG" => do
      skipBlanks false
      let handle ← tagHandle
      if !(handle == "!" || isClosedHandle handle) then failure
      skipBlanks true
      let replacement ← tagText true ""
      if replacement.isEmpty then failure
      needEnd
      emit (.handle handle replacement)
  | _ => failure
  finishLine

/-- What may follow a name without a blank. -/
def endsName (c : Option Char) : Bool :=
  endsWord c || c.any fun ch => ['?', ':', ',', ']', '}', '%', '@', (Char.ofNat 0x60)].contains ch

/-- The name of an anchor or an alias. -/
def anchorName : Lex String := do
  saveKey
  allowKey false
  let (name, c) := ((← get).cursor.skip 1).span isNameChar
  if name.isEmpty || !endsName c.head? then failure
  moveTo c
  pure (String.ofList name)

/-- A tag: spelled out between angle brackets, or a handle and a suffix. -/
def tag : Lex Unit := do
  saveKey
  allowKey false
  if (← get).cursor.at? 1 = some '<' then
    skip 2
    let text ← tagText true ""
    if text.isEmpty || !(← get).cursor.isAt (· == '>') then failure
    skip 1
    emit (.tag "" text)
  else
    let handle ← tagHandle
    if isClosedHandle handle then
      let suffix ← tagText false ""
      if suffix.isEmpty then failure
      emit (.tag handle suffix)
    else
      let suffix ← tagText false (String.ofList (handle.toList.drop 1))
      emit (if suffix.isEmpty then .tag "" "!" else .tag "!" suffix)
  let c := (← get).cursor
  if !((!(← inBlock)) && c.isAt (· == ',')) then needEnd

/-! ### Indicators -/

/-- The start or the end of a document. -/
def documentMarker (t : Token) : Lex Unit := do
  closeBlocks (-1)
  dropKey
  allowKey false
  skip 3
  emit t

/-- An opening bracket, which may begin a key. -/
def openFlow (t : Token) : Lex Unit := do
  saveKey
  modify fun s => { s with keys := none :: s.keys, flow := s.flow + 1 }
  allowKey true
  skip 1
  emit t

/-- A closing bracket. -/
def closeFlow (t : Token) : Lex Unit := do
  dropKey
  modify fun s => if s.flow == 0 then s else { s with keys := s.keys.tail, flow := s.flow - 1 }
  allowKey false
  skip 1
  emit t

/-- A comma. -/
def flowEntry : Lex Unit := do
  dropKey
  allowKey true
  skip 1
  emit .flowEntry

/-- Opens a block collection at the cursor, where a key must be allowed; nothing in brackets. -/
def openHere (t : Token) : Lex Unit := do
  if ← inBlock then
    let s ← get
    if !s.keyAllowed then failure
    openBlock s.cursor.column none t

/-- A dash. -/
def blockEntry : Lex Unit := do
  openHere .blockSequenceStart
  dropKey
  allowKey true
  skip 1
  emit .blockEntry

/-- A question mark. -/
def explicitKey : Lex Unit := do
  openHere .blockMappingStart
  dropKey
  allowKey (← inBlock)
  skip 1
  emit .key

/-- A colon: what is pending becomes a key. -/
def value : Lex Unit := do
  match (← get).keys with
  | some k :: rest =>
      modify fun s =>
        { s with tokens := s.tokens.insertIdxIfInBounds k.slot .key, keys := none :: rest }
      openBlock k.place.column (some k.slot) .blockMappingStart
      allowKey false
  | _ =>
      openHere .blockMappingStart
      allowKey (← inBlock)
  skip 1
  emit .value

/-! ### Scalars -/

/-- A block scalar. -/
def blockScalar (style : Style) : Lex Unit := do
  dropKey
  allowKey true
  let s ← get
  let (text, c) ← (blockText? (style == .folded) s.indent s.cursor : Option (String × Cursor))
  moveTo c
  emit (.scalar style text)

/-- A quoted scalar. -/
def quotedScalar (style : Style) : Lex Unit := do
  saveKey
  allowKey false
  let (text, c) ←
    (quotedText? (style == .singleQuoted) (← get).cursor : Option (String × Cursor))
  moveTo c
  emit (.scalar style text)

/-- A plain scalar.  If it is followed by a new line, a key may begin there. -/
def plainScalar : Lex Unit := do
  saveKey
  allowKey false
  let s ← get
  let (text, brokeLine, c) ←
    (plainText? (s.flow != 0) (s.indent + 1).toNat s.cursor : Option (String × Bool × Cursor))
  if brokeLine then allowKey true
  moveTo c
  emit (.scalar .plain text)

/-- Characters that never begin a plain scalar, and those that do so only in front of others. -/
def isIndicator (c : Char) : Bool :=
  ['-', '?', ':', ',', '[', ']', '{', '}', '#', '&', '*', '!', '|', '>', '\'', '"', '%', '@',
    (Char.ofNat 0x60)].contains c

/-- Whether a plain scalar begins with these characters. -/
def startsPlain (flow : Bool) (c : Char) (next : Option Char) : Bool :=
  !(isBlank c || isBreak c || isIndicator c)
    || (c == '-' && !next.any isBlank)
    || (!flow && (c == '?' || c == ':') && !endsWord next)

/-! ### The walk -/

/-- The token that begins with a character. -/
def token (c : Char) : Lex Unit := do
  let s ← get
  let flow := s.flow != 0
  let next := s.cursor.at? 1
  if c == '%' && s.cursor.column == 0 then directive
  else if s.cursor.atTriple '-' then documentMarker .documentStart
  else if s.cursor.atTriple '.' then documentMarker .documentEnd
  else if c == '[' then openFlow .flowSequenceStart
  else if c == '{' then openFlow .flowMappingStart
  else if c == ']' then closeFlow .flowSequenceEnd
  else if c == '}' then closeFlow .flowMappingEnd
  else if c == ',' then flowEntry
  else if c == '-' && endsWord next then blockEntry
  else if c == '?' && (flow || endsWord next) then explicitKey
  else if c == ':' && (flow || endsWord next) then value
  else if c == '*' then emit (.alias (← anchorName))
  else if c == '&' then emit (.anchor (← anchorName))
  else if c == '!' then tag
  else if c == '|' && !flow then blockScalar .literal
  else if c == '>' && !flow then blockScalar .folded
  else if c == '\'' then quotedScalar .singleQuoted
  else if c == '"' then quotedScalar .doubleQuoted
  else if startsPlain flow c next then plainScalar
  else failure

/-- All tokens to the end of the text, where the open block collections are closed. -/
def walk : Nat → Lex Unit
  | 0 => failure
  | fuel + 1 => do
      skipToToken ((← get).cursor.rest.length + 1)
      dropStaleKeys
      let c := (← get).cursor
      closeBlocks c.column
      match c.head? with
      | none => do
          closeBlocks (-1)
          dropKey
      | some ch => do
          token ch
          walk fuel

end Lex

/-- The text after the mark of its byte order, if there is one. -/
def withoutMark : List Char → List Char
  | '\ufeff' :: rest => rest
  | cs => cs

/-- **The tokens of a text**, if all its characters are allowed and it can be divided.  Each token
takes a character, which bounds the walk. -/
def tokens? (text : String) : Option (List Token) := do
  let cs := withoutMark text.toList
  if cs.all isAllowed then
    let (_, s) ← (Lex.walk (cs.length + 1)).run { cursor := { rest := cs } }
    pure s.tokens.toList
  else none

end ValueLens.Yaml
