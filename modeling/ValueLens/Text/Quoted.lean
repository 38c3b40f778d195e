/-
**Quoted text.**

A text in quotation marks: the marks themselves, the backslash and the common control characters
have short escapes, and a character that cannot be shown on its own is spelled by its number in
braces.

Main definitions:

* `ValueLens.Text.escape` — the spelling of one character;
* `ValueLens.Text.quoted` — the quoted text.
-/
import ValueLens.Numeral
import ValueLens.Text.Extender
import ValueLens.Text.Printable

set_option relaxedAutoImplicit false
set_option autoImplicit false

namespace ValueLens.Text

/-- The spelling by number. -/
def escapeByNumber (c : Char) : List Char :=
  ['\\', 'u', '{'] ++ Numeral.writeChars 16 c.toNat ++ ['}']

/-- The spelling of a character inside quotation marks. -/
def escape (c : Char) : List Char :=
  if c = '\x00' then ['\\', '0']
  else if c = '\t' then ['\\', 't']
  else if c = '\r' then ['\\', 'r']
  else if c = '\n' then ['\\', 'n']
  else if c = '"' then ['\\', '"']
  else if c = '\\' then ['\\', '\\']
  else if isExtender c || !isPrintable c then escapeByNumber c
  else [c]

/-- The characters of a quoted text. -/
def quotedChars (cs : List Char) : List Char :=
  ['"'] ++ cs.flatMap escape ++ ['"']

/-- **The text in quotation marks.** -/
def quoted (s : String) : String :=
  String.ofList (quotedChars s.toList)

end ValueLens.Text
