/-
**Places in a text.**

A cursor is the rest of a text with the line, the column and the number of characters before it.  A
line ends at a line feed, a carriage return, both together, a next-line character or one of the two
separators of lines and paragraphs.  All of them count as a line feed but the separators, which
keep themselves.

Main definitions:

* `ValueLens.Yaml.Cursor` — a place in a text;
* `ValueLens.Yaml.isBlank`, `ValueLens.Yaml.isBreak` — blanks and ends of lines;
* `ValueLens.Yaml.Cursor.skip`, `ValueLens.Yaml.Cursor.skipBreak` — moving on;
* `ValueLens.Yaml.Cursor.atMarker` — whether a document begins or ends here.
-/
import ValueLens.Numeral

set_option relaxedAutoImplicit false
set_option autoImplicit false

namespace ValueLens.Yaml

/-! ### Characters -/

/-- A space or a tab. -/
def isBlank (c : Char) : Bool :=
  c == ' ' || c == '\t'

/-- The two separators that are kept as they are. -/
def isSeparator (c : Char) : Bool :=
  c == '\u2028' || c == '\u2029'

/-- The end of a line. -/
def isBreak (c : Char) : Bool :=
  c == '\n' || c == '\r' || c == '\u0085' || isSeparator c

/-- What the end of a line counts as. -/
def breakValue (c : Char) : Char :=
  if isSeparator c then c else '\n'

/-- A character of names: a letter, a digit, a dash or an underscore. -/
def isNameChar (c : Char) : Bool :=
  c.isAlphanum || c == '-' || c == '_'

/-- A character that may occur in a text. -/
def isAllowed (c : Char) : Bool :=
  let n := c.toNat
  n == 0x09 || n == 0x0A || n == 0x0D || (0x20 ≤ n && n ≤ 0x7E) || n == 0x85
    || (0xA0 ≤ n && n ≤ 0xFFFD && n != 0xFEFF) || 0x10000 ≤ n

/-- Whether a word ends before this: at the end of the text, a blank or the end of a line. -/
def endsWord : Option Char → Bool
  | none => true
  | some c => isBlank c || isBreak c

/-! ### Cursors -/

/-- **A place in a text.** -/
structure Cursor where
  rest : List Char
  line : Nat := 0
  column : Nat := 0
  index : Nat := 0
  deriving DecidableEq, Repr

namespace Cursor

/-- The character at the cursor. -/
def head? (c : Cursor) : Option Char :=
  c.rest.head?

/-- The character `n` places after the cursor. -/
def at? (c : Cursor) (n : Nat) : Option Char :=
  c.rest[n]?

/-- The end of the text. -/
def atEnd (c : Cursor) : Bool :=
  c.rest.isEmpty

/-- Whether the character at the cursor is in a class. -/
def isAt (c : Cursor) (p : Char → Bool) : Bool :=
  c.head?.any p

/-- Moves on by characters of the same line. -/
def skip (c : Cursor) (n : Nat) : Cursor :=
  { c with rest := c.rest.drop n, column := c.column + n, index := c.index + n }

/-- Moves on to the next line, from its end. -/
def skipBreak (c : Cursor) : Cursor :=
  match c.rest with
  | '\r' :: '\n' :: rest => ⟨rest, c.line + 1, 0, c.index + 2⟩
  | _ :: rest => ⟨rest, c.line + 1, 0, c.index + 1⟩
  | [] => c

/-- The characters of a class at the cursor, which are not ends of lines, and the place after
them. -/
def span (c : Cursor) (p : Char → Bool) : List Char × Cursor :=
  let run := c.rest.takeWhile p
  (run, c.skip run.length)

/-- The place after the characters of a class. -/
def skipWhile (c : Cursor) (p : Char → Bool) : Cursor :=
  (c.span p).2

/-- The end of the line. -/
def skipLine (c : Cursor) : Cursor :=
  c.skipWhile fun ch => !isBreak ch

/-- Whether a word of three equal characters stands here at the start of a line. -/
def atTriple (c : Cursor) (mark : Char) : Bool :=
  c.column == 0 && c.rest.take 3 == [mark, mark, mark] && endsWord (c.at? 3)

/-- **Whether a document begins or ends here.** -/
def atMarker (c : Cursor) : Bool :=
  c.atTriple '-' || c.atTriple '.'

end Cursor

end ValueLens.Yaml
