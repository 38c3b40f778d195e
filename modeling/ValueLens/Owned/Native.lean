/-
**Owned values by type.**

How the values of each type look from outside.  An owner and a weak indirection are indirections, an
optional value and a cell are holders, a lock must be acquired, a tuple is a record with numbered
fields, and errors are handles that describe themselves.  References are not seen: a referenced
value looks like itself, though it does not lie where the reference does.

Main definitions:

* `ValueLens.Owned.int`, `ValueLens.Owned.text` and so on — scalars;
* `ValueLens.Owned.vec`, `ValueLens.Owned.map` and so on — containers;
* `ValueLens.Owned.owner`, `ValueLens.Owned.lockOf` and so on — indirections and cells.
-/
import ValueLens.Owned.Type
import ValueLens.Owned.Value

set_option relaxedAutoImplicit false
set_option autoImplicit false

namespace ValueLens.Owned

/-! ### Scalars -/

def bool (b : Bool) : Owned :=
  .plain Ty.bool.name (.bool b)

/-- A signed integer, reduced to its width. -/
def int (w : IntWidth) (z : Int) : Owned :=
  .plain (Ty.int w).name (.int (Int64.ofInt (z.bmod (Nat.pow 2 w.bits))) w.bits)

/-- An unsigned integer, reduced to its width. -/
def uint (w : IntWidth) (z : Int) : Owned :=
  .plain (Ty.uint w).name (.uint (UInt64.ofInt (z % Nat.pow 2 w.bits)) w.bits)

/-- A character is an integer of thirty-two bits. -/
def char (c : Char) : Owned :=
  .plain Ty.char.name (.int (Int64.ofNat c.toNat) 32)

/-- A single is carried by the double of its value. -/
def single (x : Binary .single) : Owned :=
  .plain (Ty.float .single).name (.float x.widen .single)

def double (x : Double) : Owned :=
  .plain (Ty.float .double).name (.float x .double)

/-- A complex number of two singles. -/
def complexSingle (re im : Binary .single) : Owned :=
  .plain (Ty.complex .single).name (.complex re.widen im.widen .single)

/-- A complex number of two doubles. -/
def complexDouble (re im : Double) : Owned :=
  .plain (Ty.complex .double).name (.complex re im .double)

/-- A text of one of the types of texts. -/
def text (t : Ty) (s : String) : Owned :=
  .plain t.ownName (.text s)

/-- An address that is not followed. -/
def raw (mutable : Bool) (target : Ty) (address : Address) : Owned :=
  .plain (Ty.raw mutable target).name (.handle address)

/-- The value of the type that has only one. -/
def unit : Owned :=
  .record Ty.unit.name .absent []

/-! ### Containers -/

/-- The largest capacity, which values without size always have. -/
def endlessCapacity : Nat := Nat.pow 2 64 - 1

/-- Whether elements of a type lie side by side as bytes. -/
def isByte : Ty → Bool
  | .uint .w8 => true
  | _ => false

/-- The capacity of a growing sequence; without a given one it is the length. -/
def growingCapacity (item : Ty) (capacity : Option Nat) : Option Nat :=
  if item.isZeroSized then some endlessCapacity else capacity

/-- A borrowed part of a sequence. -/
def slice (item : Ty) (items : List Owned) : Owned :=
  .sequence (Ty.slice item).name { contiguousBytes := isByte item } items

/-- A sequence of fixed length. -/
def array (item : Ty) (items : List Owned) : Owned :=
  .sequence (Ty.array item items.length).name
    { fixed := true, contiguousBytes := isByte item } items

/-- A growing sequence. -/
def vec (item : Ty) (capacity : Option Nat) (items : List Owned) : Owned :=
  .sequence (Ty.vec item).name
    { capacity := growingCapacity item capacity, contiguousBytes := isByte item } items

/-- A growing sequence with two ends, whose elements need not lie side by side. -/
def deque (item : Ty) (capacity : Option Nat) (items : List Owned) : Owned :=
  .sequence (Ty.deque item).name { capacity := growingCapacity item capacity } items

/-- Puts an entry among entries in the order of their keys.  The value of a key that is there is
replaced. -/
def putOrdered (key value : Owned) : List (Owned × Owned) → List (Owned × Owned)
  | [] => [(key, value)]
  | (k, v) :: rest =>
      match key.compare k with
      | .lt => (key, value) :: (k, v) :: rest
      | .eq => (k, value) :: rest
      | .gt => (k, v) :: putOrdered key value rest

/-- Puts an entry behind entries.  The value of a key that is there is replaced. -/
def putLast (key value : Owned) : List (Owned × Owned) → List (Owned × Owned)
  | [] => [(key, value)]
  | (k, v) :: rest =>
      if key.compare k == .eq then (k, value) :: rest else (k, v) :: putLast key value rest

/-- The entries of a map: one for each key, in the order of the keys or of their arrival. -/
def distinct (ordered : Bool) (entries : List (Owned × Owned)) : List (Owned × Owned) :=
  entries.foldl
    (fun acc (k, v) => if ordered then putOrdered k v acc else putLast k v acc) []

/-- A map. -/
def map (ordered : Bool) (key value : Ty) (entries : List (Owned × Owned)) : Owned :=
  .mapping (Ty.map ordered key value).name (distinct ordered entries)

/-- A set is a sequence of its elements. -/
def set (ordered : Bool) (item : Ty) (items : List Owned) : Owned :=
  .sequence (Ty.set ordered item).name {}
    ((distinct ordered (items.map fun v => (v, v))).map Prod.fst)

/-- Fields numbered from `n` on, all public. -/
def numbered (n : Nat) : List Owned → List (String × Visibility × Owned)
  | [] => []
  | v :: rest => (Numeral.decimal n, .exported, v) :: numbered (n + 1) rest

/-- A tuple is a record with numbered fields. -/
def tuple (types : List Ty) (items : List Owned) : Owned :=
  .record (Ty.tuple types).name .absent (numbered 0 items)

/-! ### Holders, cells and indirections -/

/-- A value that may be left out. -/
def option (content : Ty) (v : Option Owned) : Owned :=
  .holder (Ty.option content).name v

/-- A cell whose content is copied out. -/
def cell (content : Ty) (v : Owned) : Owned :=
  .holder (Ty.cell content).name (some v)

/-- How a lock is used by others. -/
inductive LockState where
  | free
  /-- Someone may write. -/
  | busy
  /-- Someone reads. -/
  | shared
  /-- A writer failed and let go. -/
  | poisoned
  deriving DecidableEq, Repr

/-- A lock can be acquired unless someone may write; one for a single owner keeps readers out
too. -/
def lockOf (kind : LockKind) (content : Ty) (state : LockState) (v : Owned) : Owned :=
  .lock (Ty.lock kind content).name { exclusive := kind == .mutex, busy := state == .busy } v

/-- Where an indirection leads. -/
inductive Target where
  /-- To an allocation of its own. -/
  | fresh (value : Owned)
  /-- To an allocation that later parts may refer to. -/
  | shared (label : String) (value : Owned)
  /-- To an allocation that its own parts may refer to. -/
  | knot (label : String) (value : Owned)
  /-- To an allocation by its label. -/
  | link (label : String)
  /-- To a node of the graph. -/
  | view (id : NodeId)

/-- An indirection of a type to a target. -/
def indirection (t : Ty) : Target → Owned
  | .fresh v => .pointer t.name v
  | .shared label v => .shared t.name label v
  | .knot label v => .knot t.name label v
  | .link label => .link t.name label
  | .view id => .view t.name id

/-- An owner of a target. -/
def owner (kind : Owner) (type : Ty) (target : Target) : Owned :=
  indirection (.owner kind type) target

/-- A weak indirection, which may have lost its target. -/
def weak (type : Ty) : Option Target → Owned
  | some target => indirection (.weak type) target
  | none => .dangling (Ty.weak type).name

/-- An error of a type. -/
def errorOf (t : Ty) (description : String) : Owned :=
  .error t.name description

end ValueLens.Owned
