/-
**The text of scalars.**

A plain or quoted scalar may run over several lines.  Between its words lies a gap: blanks within a
line are kept, a single end of line becomes a space, and of several ends the first is dropped.  A
block scalar takes whole lines that are indented far enough; a folded one joins neighbouring lines
in the same way, unless one of them begins with a blank, and the header says what happens to the
ends of lines after the last.

Main definitions:

* `ValueLens.Yaml.Gap`, `ValueLens.Yaml.Gap.text` — what lies between two words;
* `ValueLens.Yaml.quotedText?` — a scalar in quotation marks;
* `ValueLens.Yaml.plainText?` — a scalar without marks;
* `ValueLens.Yaml.blockText?` — a scalar of whole lines.
-/
import ValueLens.Yaml.Cursor

set_option relaxedAutoImplicit false
set_option autoImplicit false

namespace ValueLens.Yaml

/-! ### Gaps -/

/-- **What lies between two words.** -/
inductive Gap where
  /-- Blanks within a line. -/
  | blanks (text : List Char)
  /-- The first end of line, if it was not escaped, and the further ones. -/
  | lines (first : Option Char) (more : List Char)
  deriving DecidableEq, Repr

namespace Gap

/-- No gap at all. -/
def empty : Gap := .blanks []

/-- Whether the gap leads to another line. -/
def isLines : Gap → Bool
  | .blanks _ => false
  | .lines _ _ => true

/-- One blank more; those at the start of a line do not count. -/
def addBlank (c : Char) : Gap → Gap
  | .blanks text => .blanks (text ++ [c])
  | .lines first more => .lines first more

/-- One end of line more. -/
def addBreak (c : Char) : Gap → Gap
  | .blanks _ => .lines (some c) []
  | .lines first more => .lines first (more ++ [c])

/-- **What a gap counts as.** -/
def text : Gap → List Char
  | .blanks text => text
  | .lines none more => more
  | .lines (some c) more =>
      if c = '\n' then (if more.isEmpty then [' '] else more) else c :: more

/-- Extends a gap by all blanks and ends of lines at the cursor.  A tab must not stand in for the
indentation. -/
def extend? (indent : Nat) : Nat → Gap → Cursor → Option (Gap × Cursor)
  | 0, _, _ => none
  | fuel + 1, g, c =>
      match c.head? with
      | none => some (g, c)
      | some ch =>
          if isBlank ch then
            if g.isLines && c.column < indent && ch == '\t' then none
            else extend? indent fuel (g.addBlank ch) (c.skip 1)
          else if isBreak ch then extend? indent fuel (g.addBreak (breakValue ch)) c.skipBreak
          else some (g, c)

end Gap

/-! ### Quoted scalars -/

/-- The character of an escape that has a letter of its own. -/
def escaped? (c : Char) : Option Char :=
  match c with
  | '0' => some '\x00'
  | 'a' => some '\x07'
  | 'b' => some '\x08'
  | 't' | '\t' => some '\t'
  | 'n' => some '\n'
  | 'v' => some '\x0b'
  | 'f' => some '\x0c'
  | 'r' => some '\r'
  | 'e' => some '\x1b'
  | ' ' | '"' | '/' | '\\' => some c
  | 'N' => some '\u0085'
  | '_' => some '\u00a0'
  | 'L' => some '\u2028'
  | 'P' => some '\u2029'
  | _ => none

/-- How many digits follow an escape by number. -/
def escapeDigits? : Char → Option Nat
  | 'x' => some 2
  | 'u' => some 4
  | 'U' => some 8
  | _ => none

/-- The character of a number, if there is one. -/
def charOf? (n : Nat) : Option Char :=
  if n.isValidChar then some (Char.ofNat n) else none

/-- The character of an escape by its letter or number, and how many characters spell it after the
backslash. -/
def escape? : List Char → Option (Char × Nat)
  | [] => none
  | c :: rest =>
      match escapeDigits? c with
      | some n =>
          if rest.length < n then none
          else do
            let ch ← charOf? (← Numeral.read? 16 (rest.take n))
            pure (ch, n + 1)
      | none => (escaped? c).map fun ch => (ch, 1)

/-- The characters of a quoted scalar up to a blank, the end of the line or the closing mark.  An
escaped end of line starts the gap that follows. -/
def quotedRun? (single : Bool) : Nat → Cursor → Option (List Char × Gap × Cursor)
  | 0, _ => none
  | fuel + 1, c =>
      match c.rest with
      | [] => some ([], .empty, c)
      | ch :: rest =>
          let keep (found : Char) (width : Nat) : Option (List Char × Gap × Cursor) := do
            let (text, gap, c) ← quotedRun? single fuel (c.skip width)
            pure (found :: text, gap, c)
          if isBlank ch || isBreak ch then some ([], .empty, c)
          else if single then
            if ch = '\'' then
              if rest.head? = some '\'' then keep '\'' 2 else some ([], .empty, c)
            else keep ch 1
          else if ch = '"' then some ([], .empty, c)
          else if ch = '\\' then
            if rest.head?.any isBreak then some ([], .lines none [], (c.skip 1).skipBreak)
            else do
              let (found, width) ← escape? rest
              keep found (width + 1)
          else keep ch 1

/-- The loop behind `quotedText?`: runs and gaps in turn. -/
def quotedFrom? (single : Bool) : Nat → List Char → Cursor → Option (List Char × Cursor)
  | 0, _, _ => none
  | fuel + 1, text, c =>
      if c.atMarker || c.atEnd then none
      else do
        let (run, gap, c) ← quotedRun? single (c.rest.length + 1) c
        if c.head? = some (if single then '\'' else '"') then pure (text ++ run, c.skip 1)
        else
          let (gap, c) ← gap.extend? 0 (c.rest.length + 1) c
          quotedFrom? single fuel (text ++ run ++ gap.text) c

/-- **The text of a quoted scalar**, from its opening mark on, and the place after it. -/
def quotedText? (single : Bool) (c : Cursor) : Option (String × Cursor) :=
  (quotedFrom? single (c.rest.length + 1) [] (c.skip 1)).map fun (text, c) =>
    (String.ofList text, c)

/-! ### Plain scalars -/

/-- The brackets and the comma of bracketed collections. -/
def isFlowChar (c : Char) : Bool :=
  c == ',' || c == '[' || c == ']' || c == '{' || c == '}'

/-- The word of a plain scalar at the front of a text.  Inside brackets a colon must not touch a
bracket. -/
def plainWord? (flow : Bool) : List Char → Option (List Char)
  | [] => some []
  | c :: rest =>
      if isBlank c || isBreak c then some []
      else if flow && c == ':' && rest.head?.any fun d => isFlowChar d || d == '?' then none
      else if c == ':' && endsWord rest.head? then some []
      else if flow && isFlowChar c then some []
      else (plainWord? flow rest).map (c :: ·)

/-- The loop behind `plainText?`: words and gaps in turn.  The last gap is given back. -/
def plainFrom? (flow : Bool) (indent : Nat) :
    Nat → List Char → Gap → Cursor → Option (List Char × Gap × Cursor)
  | 0, _, _, _ => none
  | fuel + 1, text, gap, c =>
      if c.atMarker || c.isAt (· == '#') then some (text, gap, c)
      else do
        let word ← plainWord? flow c.rest
        let c := c.skip word.length
        let (text, gap) :=
          if word.isEmpty then (text, gap) else (text ++ gap.text ++ word, Gap.empty)
        if c.isAt fun ch => isBlank ch || isBreak ch then
          let (gap, c) ← gap.extend? indent (c.rest.length + 1) c
          if !flow && c.column < indent then pure (text, gap, c)
          else plainFrom? flow indent fuel text gap c
        else pure (text, gap, c)

/-- **The text of a plain scalar**, whether it ends on a later line, and the place after it and
the gap that follows. -/
def plainText? (flow : Bool) (indent : Nat) (c : Cursor) : Option (String × Bool × Cursor) :=
  (plainFrom? flow indent (c.rest.length + 1) [] .empty c).map fun (text, gap, c) =>
    (String.ofList text, gap.isLines, c)

/-! ### Block scalars -/

/-- What happens to the ends of lines after the last line. -/
inductive Chomping where
  /-- All are dropped. -/
  | strip
  /-- The first is kept. -/
  | clip
  /-- All are kept. -/
  | keep
  deriving DecidableEq, Repr

/-- The letter of a chomping. -/
def Chomping.ofChar? : Char → Option Chomping
  | '+' => some .keep
  | '-' => some .strip
  | _ => none

/-- What the header of a block scalar says.  The indentation is zero if it is left to the text. -/
structure BlockHeader where
  chomping : Chomping := .clip
  indentation : Nat := 0
  deriving DecidableEq, Repr

/-- The digit at the cursor, or zero without one, and the place after it. -/
def digitAt (c : Cursor) : Nat × Cursor :=
  match c.head? with
  | some d => if d.isDigit then (d.toNat - '0'.toNat, c.skip 1) else (0, c)
  | none => (0, c)

/-- The chomping at the cursor, if there is one, and the place after it. -/
def chompingAt (c : Cursor) : Option Chomping × Cursor :=
  match c.head?.bind Chomping.ofChar? with
  | some chomping => (some chomping, c.skip 1)
  | none => (none, c)

/-- Reads the header after its first character: a chomping and an indentation in either order, and a
comment.  The indentation must not be zero. -/
def blockHeader? (c : Cursor) : Option (BlockHeader × Cursor) :=
  let (before, c) := chompingAt c
  let (indentation, next) := digitAt c
  if c.isAt (· == '0') then none
  else
    let (after, c) :=
      if before.isNone && indentation != 0 then chompingAt next else (none, next)
    let c := c.skipWhile isBlank
    let c := if c.isAt (· == '#') then c.skipLine else c
    let header : BlockHeader := ⟨(before.or after).getD .clip, indentation⟩
    if c.atEnd then some (header, c)
    else if c.isAt isBreak then some (header, c.skipBreak)
    else none

/-- Empty lines at the cursor, up to the indentation of the next line.  If the indentation is not
known yet, it is the widest one found, but at least `floor`. -/
def blockBreaks? (floor : Nat) :
    Nat → Nat → Nat → List Char → Cursor → Option (Nat × List Char × Cursor)
  | 0, _, _, _, _ => none
  | fuel + 1, indent, widest, breaks, c =>
      let spaces := (c.span (· == ' ')).1.length
      let c := c.skip (if indent = 0 then spaces else min spaces (indent - c.column))
      let widest := max widest c.column
      if (indent = 0 || c.column < indent) && c.isAt (· == '\t') then none
      else
        match c.head? with
        | some ch =>
            if isBreak ch then
              blockBreaks? floor fuel indent widest (breaks ++ [breakValue ch]) c.skipBreak
            else some (if indent = 0 then max widest floor else indent, breaks, c)
        | none => some (if indent = 0 then max widest floor else indent, breaks, c)

/-- The lines of a block scalar so far. -/
structure BlockState where
  text : List Char := []
  /-- The end of the last line. -/
  ending : Option Char := none
  /-- The empty lines after it. -/
  breaks : List Char := []
  /-- Whether the last line began with a blank. -/
  afterBlank : Bool := false
  deriving DecidableEq, Repr

/-- What joins the next line to the lines so far. -/
def BlockState.joint (s : BlockState) (folded startsBlank : Bool) : List Char :=
  if folded && s.ending == some '\n' && !s.afterBlank && !startsBlank then
    (if s.breaks.isEmpty then [' '] else s.breaks)
  else s.ending.toList ++ s.breaks

/-- The lines of a block scalar, as long as they are indented exactly so far. -/
def blockLines? (folded : Bool) (floor indent : Nat) :
    Nat → BlockState → Cursor → Option (BlockState × Cursor)
  | 0, _, _ => none
  | fuel + 1, s, c =>
      if c.column == indent && !c.atEnd then do
        let startsBlank := c.isAt isBlank
        let (line, c) := c.span fun ch => !isBreak ch
        let text := s.text ++ s.joint folded startsBlank ++ line
        let ending := c.head?.map breakValue
        let (_, breaks, c) ← blockBreaks? floor (c.rest.length + 1) indent 0 [] c.skipBreak
        blockLines? folded floor indent fuel ⟨text, ending, breaks, startsBlank⟩ c
      else some (s, c)

/-- **The text of a block scalar** below a parent indented by `parent`, from its first character
on, and the place after it. -/
def blockText? (folded : Bool) (parent : Int) (c : Cursor) : Option (String × Cursor) := do
  let (header, c) ← blockHeader? (c.skip 1)
  let floor := max 1 (parent + 1).toNat
  let given := if header.indentation = 0 then 0 else parent.toNat + header.indentation
  let (indent, breaks, c) ← blockBreaks? floor (c.rest.length + 1) given 0 [] c
  let (s, c) ← blockLines? folded floor indent (c.rest.length + 1) { breaks := breaks } c
  let tail :=
    match header.chomping with
    | .strip => []
    | .clip => s.ending.toList
    | .keep => s.ending.toList ++ s.breaks
  pure (String.ofList (s.text ++ tail), c)

end ValueLens.Yaml
