/-
**Hex dumps of byte buffers.**

Sixteen bytes make a line: the offset of the first in eight hexadecimal digits, the bytes as two
digits each with a wider gap after the eighth, and a gutter that shows the bytes as characters.  A
short last line is filled with blanks, so that all gutters start in the same column.

Main definitions:

* `ValueLens.HexDump.rows` — the bytes in rows of sixteen;
* `ValueLens.HexDump.line` — the text of one row;
* `ValueLens.HexDump.text`, `ValueLens.HexDump.indented` — the whole dump, plain or with every line
  behind an indentation.
-/
import ValueLens.Numeral

set_option relaxedAutoImplicit false
set_option autoImplicit false

namespace ValueLens.HexDump

/-- How many bytes a line shows. -/
def rowSize : Nat := 16

/-- The loop behind `rows`: at most `fuel` rows are cut off. -/
def rowsFrom : Nat → List UInt8 → List (List UInt8)
  | 0, _ => []
  | _ + 1, [] => []
  | fuel + 1, bytes => bytes.take rowSize :: rowsFrom fuel (bytes.drop rowSize)

/-- The bytes in rows of sixteen, the last row possibly shorter. -/
def rows (bytes : List UInt8) : List (List UInt8) :=
  rowsFrom bytes.length bytes

/-! ### One line -/

/-- A byte as two hexadecimal digits. -/
def byteChars (b : UInt8) : List Char :=
  [Numeral.digitChar (b.toNat / 16), Numeral.digitChar (b.toNat % 16)]

/-- The character of a byte in the gutter: itself if it is visible or a space, else a dot. -/
def gutterChar (b : UInt8) : Char :=
  if 32 ≤ b ∧ b ≤ 126 then Char.ofNat b.toNat else '.'

/-- One column: two digits and a blank, or three blanks; the eighth column has a blank more. -/
def column (row : List UInt8) (index : Nat) : List Char :=
  let cell :=
    match row[index]? with
    | some b => byteChars b ++ [' ']
    | none => [' ', ' ', ' ']
  if index = 7 then cell ++ [' '] else cell

/-- The text of one row, without the end of line. -/
def line (offset : Nat) (row : List UInt8) : List Char :=
  (Numeral.zeroPadded 8 16 offset).toList ++ [' ', ' ']
    ++ (List.range rowSize).flatMap (column row)
    ++ [' ', '|'] ++ row.map gutterChar ++ ['|']

/-! ### The whole dump -/

/-- The lines of the rows, the first of which starts at `offset`. -/
def linesFrom (offset : Nat) : List (List UInt8) → List (List Char)
  | [] => []
  | row :: rest => line offset row :: linesFrom (offset + rowSize) rest

/-- The lines of a dump. -/
def lines (bytes : List UInt8) : List (List Char) :=
  linesFrom 0 (rows bytes)

/-- **Every line behind an indentation and followed by an end of line.** -/
def indented (indent : String) (depth : Nat) (bytes : List UInt8) : String :=
  let margin := (List.replicate depth indent.toList).flatten
  String.ofList ((lines bytes).flatMap fun l => margin ++ l ++ ['\n'])

/-- **The dump**: every line ends with an end of line, and no bytes give the empty text. -/
def text (bytes : List UInt8) : String :=
  String.ofList ((lines bytes).flatMap fun l => l ++ ['\n'])

end ValueLens.HexDump
