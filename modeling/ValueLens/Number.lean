/-
**Numbers of documents.**

A number in a document is an integer of sixty-four bits, signed if it fits and unsigned otherwise,
or a double.

Main definitions:

* `ValueLens.Number` — the three kinds;
* `ValueLens.Number.ofInt?` — the number of an integer, if one of the integer kinds holds it;
* `ValueLens.Number.same` — when two numbers are the same key;
* `ValueLens.Number.shape` — how a number looks from outside.
-/
import ValueLens.Shape

set_option relaxedAutoImplicit false
set_option autoImplicit false

namespace ValueLens

/-- **A number of a document.** -/
inductive Number where
  | int (value : Int64)
  /-- An integer beyond the signed range. -/
  | uint (value : UInt64)
  | float (value : Double)
  deriving DecidableEq, Repr

namespace Number

/-- One more than the largest signed integer. -/
def signedBound : Int := Nat.pow 2 63

/-- One more than the largest unsigned integer. -/
def unsignedBound : Int := Nat.pow 2 64

/-- The number of an integer, signed if possible, or nothing if it has too many bits. -/
def ofInt? (z : Int) : Option Number :=
  if -signedBound ≤ z ∧ z < signedBound then some (.int (Int64.ofInt z))
  else if 0 ≤ z ∧ z < unsignedBound then some (.uint (UInt64.ofInt z))
  else none

/-- Whether two numbers are the same key: kinds are kept apart, the two zeros are one key, and so
are all NaNs. -/
def same : Number → Number → Bool
  | .int x, .int y => x == y
  | .uint x, .uint y => x == y
  | .float x, .float y => x.same y
  | _, _ => false

/-- How a number looks from outside. -/
def shape : Number → Shape
  | .int v => .int v 64
  | .uint v => .uint v 64
  | .float v => .float v .double

end Number

end ValueLens
