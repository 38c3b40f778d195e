/-
**Tables of characters.**

A property of characters is given by a table of inclusive ranges of code points, in increasing
order and without overlap. All the tables are those of Unicode 16.0.

Main definitions:

* `ValueLens.Text.Ranges` — such a table;
* `ValueLens.Text.Ranges.member` — membership of a character.
-/

set_option relaxedAutoImplicit false
set_option autoImplicit false

namespace ValueLens.Text

/-- Inclusive ranges of code points, in increasing order. -/
abbrev Ranges := List (Nat × Nat)

/-- Whether a character lies in one of the ranges. -/
def Ranges.member : Ranges → Char → Bool
  | [], _ => false
  | (lo, hi) :: rest, c =>
      if c.toNat < lo then false else if c.toNat ≤ hi then true else member rest c

end ValueLens.Text
