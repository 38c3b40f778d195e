/-
**Blank text.**

A text is blank when it holds nothing but white space of any script.

Main definitions:

* `ValueLens.Text.blanks` — the table of the white space property;
* `ValueLens.Text.isBlank` — membership of a character;
* `ValueLens.Text.allBlank` — whether a whole text is blank.
-/
import ValueLens.Text.Ranges

set_option relaxedAutoImplicit false
set_option autoImplicit false

namespace ValueLens.Text

/-- The white space characters. -/
def blanks : Ranges :=
  [(0x9, 0xd), (0x20, 0x20), (0x85, 0x85), (0xa0, 0xa0), (0x1680, 0x1680), (0x2000, 0x200a),
   (0x2028, 0x2029), (0x202f, 0x202f), (0x205f, 0x205f), (0x3000, 0x3000)]

/-- A white space character. -/
def isBlank (c : Char) : Bool :=
  blanks.member c

/-- Whether a text holds no character but white space. -/
def allBlank (s : String) : Bool :=
  s.toList.all isBlank

end ValueLens.Text
