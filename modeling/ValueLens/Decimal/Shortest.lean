/-
**The shortest decimal of a floating point datum.**

The reals that round to a finite datum form an interval around it, whose ends belong to it when the
significand is even.  For one digit, two digits and so on, the two neighbours of the datum on the
grid of decimals with that many digits are tested; the first grid with a neighbour inside the
interval gives the answer.  Of two neighbours inside, the nearer one is taken.

Main definitions:

* `ValueLens.Interval` — the interval of a datum, over a common denominator;
* `ValueLens.Tie` — what to do when both neighbours are equally near;
* `ValueLens.Binary.shortest` — the shortest decimal.
-/
import ValueLens.Decimal.Scientific

set_option relaxedAutoImplicit false
set_option autoImplicit false

namespace ValueLens

/-- How a decimal that lies halfway between two neighbours is settled. -/
inductive Tie where
  /-- Away from zero. -/
  | up
  /-- To the neighbour whose last digit is even. -/
  | even
  deriving DecidableEq, Repr

/-- The reals that round to a datum: all three numerators stand over `den`. -/
structure Interval where
  low : Nat
  value : Nat
  high : Nat
  den : Nat
  closed : Bool
  deriving Repr

namespace Interval

/-- The interval of a finite nonzero datum.  Below a power of two the gap is half as wide. -/
def ofBinary {f : Binary.Format} (x : Binary f) : Interval :=
  let unit := Nat.pow 2 x.shift
  let below := if x.exponentField ≠ 0 ∧ x.fraction = 0 then 1 else 2
  { low := (4 * x.significand - below) * unit
    value := 4 * x.significand * unit
    high := (4 * x.significand + 2) * unit
    den := 4 * Nat.pow 2 f.unitShift
    closed := x.significand % 2 == 0 }

/-- Whether `n` times ten to the `unit` lies in the interval. -/
def contains (i : Interval) (n : Nat) (unit : Int) : Bool :=
  let point := n * Scientific.tenNum unit * i.den
  let low := i.low * Scientific.tenDen unit
  let high := i.high * Scientific.tenDen unit
  if i.closed then low ≤ point && point ≤ high else low < point && point < high

/-- The neighbour on the grid of ten to the `unit` that lies in the interval, the nearer of two. -/
def neighbour? (i : Interval) (tie : Tie) (unit : Int) : Option Nat :=
  let num := i.value * Scientific.tenDen unit
  let den := i.den * Scientific.tenNum unit
  let n := num / den
  match i.contains n unit, i.contains (n + 1) unit with
  | false, false => none
  | true, false => some n
  | false, true => some (n + 1)
  | true, true =>
      match compare (2 * num) ((2 * n + 1) * den), tie with
      | .lt, _ => some n
      | .gt, _ => some (n + 1)
      | .eq, .up => some (n + 1)
      | .eq, .even => some (if n % 2 = 0 then n else n + 1)

end Interval

/-- Seventeen digits tell all doubles apart. -/
def maxDigits : Nat := 17

/-- **The decimal with the fewest digits that rounds to the datum**, for a finite datum. -/
def Binary.shortest {f : Binary.Format} (tie : Tie) (x : Binary f) : Scientific :=
  if x.isZero then .zero
  else
    let i := Interval.ofBinary x
    let top := Scientific.exponentOf i.value i.den
    let hit := (List.range maxDigits).findSome? fun (k : Nat) =>
      (i.neighbour? tie (top - k)).map fun n => Scientific.ofUnits n (top - k)
    match hit with
    | some s => { s with digits := Scientific.trimZeros s.digits }
    | none => Scientific.rounded i.value i.den (maxDigits - 1)

end ValueLens
