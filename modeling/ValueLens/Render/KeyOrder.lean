/-
**The order of map entries.**

Keys that compare directly are ordered by value: truth values, then numbers of every kind, then
texts, handles and arrays of such.  If some key does not compare directly, the descriptions of the
keys are compared, provided that they may be asked and all have one; if that fails, their compact
texts on request; otherwise the entries stay as they are.  Entries that compare equal keep their
order.

An integer and a floating point number are compared by rounding the integer; only a tie needs the
exact values, because rounding keeps the order.

Main definitions:

* `ValueLens.SortKey` — what the natural order sees of a key;
* `ValueLens.SortKey.compare` — the natural order;
* `ValueLens.KeyOrder.sort` — the entries in order.
-/
import ValueLens.Render.Hook

set_option relaxedAutoImplicit false
set_option autoImplicit false

namespace ValueLens

/-! ### Numbers -/

/-- A numeric key. -/
inductive KeyNumber where
  | int (value : Int64)
  | uint (value : UInt64)
  | float (value : Double)
  deriving DecidableEq, Repr

namespace KeyNumber

/-- Breaks the tie between equal numbers of different kinds. -/
def rank : KeyNumber → Nat
  | .int _ => 0
  | .uint _ => 1
  | .float _ => 2

/-- The value of an integer. -/
def integer? : KeyNumber → Option Int
  | .int v => some v.toInt
  | .uint v => some v.toNat
  | .float _ => none

/-- An integer against a floating point number. -/
def compareIntFloat (z : Int) (x : Double) : Ordering :=
  match (Binary.ofInt z).totalOrder x with
  | .eq => Ord.compare z (x.truncate?.getD 0)
  | o => o

/-- By value, whatever the kinds. -/
def compareValue : KeyNumber → KeyNumber → Ordering
  | .float x, .float y => x.totalOrder y
  | .float x, .int z => (compareIntFloat z.toInt x).swap
  | .float x, .uint n => (compareIntFloat n.toNat x).swap
  | .int z, .float y => compareIntFloat z.toInt y
  | .uint n, .float y => compareIntFloat n.toNat y
  | .int z, .int w => Ord.compare z.toInt w.toInt
  | .int z, .uint n => Ord.compare z.toInt (n.toNat : Int)
  | .uint n, .int z => Ord.compare (n.toNat : Int) z.toInt
  | .uint n, .uint m => Ord.compare n.toNat m.toNat

/-- **By value, then by kind.** -/
def compare (a b : KeyNumber) : Ordering :=
  (a.compareValue b).then (Ord.compare a.rank b.rank)

end KeyNumber

/-! ### Keys -/

/-- **What the natural order sees of a key.** -/
inductive SortKey where
  | bool (value : Bool)
  | number (value : KeyNumber)
  | text (value : String)
  | handle (address : Address)
  | array (items : List SortKey)
  | other (typeName : String)
  deriving Repr

namespace SortKey

/-- Keys of different kinds are ordered by kind. -/
def rank : SortKey → Nat
  | .bool _ => 0
  | .number _ => 1
  | .text _ => 2
  | .handle _ => 3
  | .array _ => 4
  | .other _ => 5

/-- What the natural order sees of a node; arrays are looked into `fuel` levels deep. -/
def ofNode (g : Graph) : Nat → NodeId → SortKey
  | 0, id => .other (g.typeName id)
  | fuel + 1, id =>
      match g.shape id with
      | .bool b => .bool b
      | .int v _ => .number (.int v)
      | .uint v _ => .number (.uint v)
      | .float v _ => .number (.float v)
      | .text t => .text t
      | .handle a => .handle a
      | .array q => .array (q.items.map (ofNode g fuel))
      | _ => .other (g.typeName id)

mutual

/-- **The natural order**: within a kind by content, arrays element by element and then by length;
kinds without a content order go by type name. -/
def compare : SortKey → SortKey → Ordering
  | .bool x, .bool y => Ord.compare x y
  | .number x, .number y => x.compare y
  | .text x, .text y => Ord.compare x y
  | .handle x, .handle y => Ord.compare x.toNat y.toNat
  | .array xs, .array ys => compareList xs ys
  | .other x, .other y => Ord.compare x y
  | x, y => Ord.compare x.rank y.rank

/-- Element by element; of two lists that agree as far as they go, the shorter one is first. -/
def compareList : List SortKey → List SortKey → Ordering
  | [], [] => .eq
  | [], _ :: _ => .lt
  | _ :: _, [] => .gt
  | x :: xs, y :: ys => (compare x y).then (compareList xs ys)

end

end SortKey

/-! ### Entries -/

namespace KeyOrder

/-- Whether keys of a shape compare directly. -/
def isSimple : Shape → Bool
  | .bool _ | .int _ _ | .uint _ _ | .float _ _ | .text _ | .handle _ | .array _ => true
  | _ => false

/-- Sorts by a criterion; what compares equal keeps its order. -/
def sortOn {α κ : Type} (compare : κ → κ → Ordering) (xs : List (κ × α)) : List α :=
  (xs.mergeSort fun a b => compare a.1 b.1 != .gt).map Prod.snd

/-- The descriptions of all keys, or none if a key has none.  Keys after such a key are not
asked. -/
def descriptions? (g : Graph) : List Entry → Trace (Option (List (String × Entry)))
  | [] => pure (some [])
  | e :: rest => do
      match (← (g.node e.key).describe).text? with
      | none => pure none
      | some t => pure ((← descriptions? g rest).map ((t, e) :: ·))

/-- The compact texts of all keys. -/
def echoes (echo : NodeId → Trace String) : List Entry → Trace (List (String × Entry))
  | [] => pure []
  | e :: rest => do
      let t ← echo e.key
      pure ((t, e) :: (← echoes echo rest))

/-- The fallbacks for keys that do not compare directly. -/
def sortByText (s : Scene) (echo : NodeId → Trace String) (hookAllowed : Bool)
    (entries : List Entry) : Trace (List Entry) := do
  let described ← if hookAllowed then descriptions? s.graph entries else pure none
  match described with
  | some keyed => pure (sortOn Ord.compare keyed)
  | none =>
      if s.config.echoKeys then pure (sortOn Ord.compare (← echoes echo entries))
      else pure entries

/-- **The entries in order.**  `echo` gives the compact text of a key. -/
def sort (s : Scene) (echo : NodeId → Trace String) (hookAllowed : Bool)
    (entries : List Entry) : Trace (List Entry) :=
  if entries.all fun e => isSimple (s.graph.shape e.key) then
    pure (sortOn SortKey.compare
      (entries.map fun e => (SortKey.ofNode s.graph (s.graph.size + 1) e.key, e)))
  else sortByText s echo hookAllowed entries

end KeyOrder

end ValueLens
