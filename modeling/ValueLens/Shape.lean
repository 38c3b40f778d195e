/-
**Shapes of values.**

A value is seen as a node: what it looks like from outside (its shape), what its type is called,
and whether it can describe itself.  The children of a node are named by the numbers of their
nodes, so that values may share parts and lead back to themselves.

Main definitions:

* `ValueLens.Shape` — the kinds of values and what each kind shows;
* `ValueLens.Lock` — a lock in front of a value;
* `ValueLens.Capability` — what a value answers when asked to describe itself;
* `ValueLens.Node` — shape, type name and capability;
* `ValueLens.Visibility.ofQualifier` — which qualifiers of a field make it public.
-/
import ValueLens.Binary
import ValueLens.Text.Blank

set_option relaxedAutoImplicit false
set_option autoImplicit false

namespace ValueLens

/-- The number of a node in its graph. -/
abbrev NodeId := Nat

/-- Where a value lives: its identity as an indirection. -/
abbrev Address := UInt64

/-- Whether a field belongs to the public surface of its record. -/
inductive Visibility where
  /-- Part of the public surface. -/
  | exported
  /-- For the record itself only. -/
  | internal
  deriving DecidableEq, Repr

/-- A field without a qualifier is internal to its record. -/
def Visibility.ofQualifier (qualifier : String) : Visibility :=
  if Text.allBlank qualifier then .internal else .exported

/-- The elements of an array or a slice.  `bytes` is a raw view of the same elements, if they have
one. -/
structure Sequence where
  items : List NodeId
  capacity : Nat
  bytes : Option (List UInt8) := none
  deriving DecidableEq, Repr

namespace Sequence

/-- A sequence whose capacity is its length. -/
def ofItems (items : List NodeId) : Sequence :=
  { items := items, capacity := items.length }

/-- The same elements with room for `capacity`, but never for less than there are. -/
def withCapacity (s : Sequence) (capacity : Nat) : Sequence :=
  { s with capacity := max capacity s.items.length }

end Sequence

/-- One pair of an associative container. -/
structure Entry where
  key : NodeId
  value : NodeId
  deriving DecidableEq, Repr

/-- One declared field of a record. -/
structure Field where
  name : String
  value : NodeId
  visibility : Visibility
  deriving DecidableEq, Repr

/-- **A lock in front of a value.** -/
structure Lock where
  /-- Whether it can be acquired by one at a time only. -/
  exclusive : Bool := false
  /-- Whether it cannot be acquired now. -/
  busy : Bool := false
  deriving DecidableEq, Repr

namespace Lock

/-- The lock while it is held, or not. -/
def during (lock : Lock) (held : Bool) : Lock :=
  { lock with busy := lock.busy || (lock.exclusive && held) }

/-- What one holds who has acquired the lock of an address and keeps others out. -/
def holds (lock : Lock) (address : Address) : List Address :=
  if lock.exclusive then [address] else []

end Lock

/-- **What a value looks like from outside.** -/
inductive Shape where
  /-- Nothing usable. -/
  | invalid
  | bool (value : Bool)
  | int (value : Int64) (bits : Nat)
  | uint (value : UInt64) (bits : Nat)
  | float (value : Double) (width : FloatWidth)
  | complex (re im : Double) (width : FloatWidth)
  | text (value : String)
  /-- A sequence of fixed size. -/
  | array (elements : Sequence)
  /-- A sequence that may grow, or none at all. -/
  | slice (elements : Option Sequence)
  /-- An associative container in iteration order, or none at all. -/
  | map (entries : Option (List Entry))
  /-- A record with its fields in declaration order. -/
  | record (fields : List Field)
  /-- An indirection to another value, or to none. -/
  | pointer (address : Address) (target : Option NodeId)
  /-- A holder whose content decides its type at run time. -/
  | holder (content : Option NodeId)
  /-- An indirection that must be acquired before its content can be read. -/
  | guarded (address : Address) (content : Option NodeId) (lock : Lock)
  /-- A handle of which only the address can be seen. -/
  | handle (address : Address)
  deriving DecidableEq, Repr

namespace Shape

/-- The value modulo 256, if it is an integer. -/
def toByte? : Shape → Option UInt8
  | .uint v _ => some v.toUInt8
  | .int v _ => some v.toInt8.toUInt8
  | _ => none

/-- What a guard gives when it is acquired now. -/
def acquire? : Shape → Option NodeId
  | .guarded _ content ⟨_, false⟩ => content
  | _ => none

/-- The shape while the locks of some addresses are held. -/
def holding (held : List Address) : Shape → Shape
  | .guarded address content lock => .guarded address content (lock.during (held.contains address))
  | shape => shape

/-- A dynamic holder, full or empty. -/
def isHolder : Shape → Bool
  | .holder _ => true
  | _ => false

end Shape

/-- **What a value answers when asked to describe itself.** -/
inductive Capability where
  /-- It has no description. -/
  | absent
  | text (description : String)
  /-- A description of a value that reports itself as an error. -/
  | error (description : String)
  /-- Producing the description failed with this message. -/
  | panicked (message : String)
  deriving DecidableEq, Repr

/-- What a failure that unwinds carries: a message, or something else. -/
inductive Payload where
  | message (text : String)
  | other
  deriving DecidableEq, Repr

/-- The answer of a value whose description fails; only a message can be told. -/
def Capability.ofPayload : Payload → Capability
  | .message t => .panicked t
  | .other => .panicked "unknown panic"

/-- **One value.** -/
structure Node where
  shape : Shape
  typeName : String
  capability : Capability := .absent
  deriving DecidableEq, Repr

end ValueLens
