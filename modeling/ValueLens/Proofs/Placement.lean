/-
**Owned values as nodes.**

Placing an owned value puts its parts into the table before the whole.  A whole begins where the
part at its beginning does, and an indirection has the address of what lies at the very beginning of
its target; the address of a lock is its own.  An allocation has one owner or is told apart by its
label, so that indirections with one address lead to one node.  All this holds of values whose parts
do not refer to an allocation around them: trees, and values with shared allocations.

If moreover no allocation begins with a lock, then no indirection has the address of a lock.

Main definitions:

* `ValueLens.Owned.lockFirst` — a lock lies at the very beginning of a value;
* `ValueLens.Owned.orderly` — no part refers to an allocation around it;
* `ValueLens.Graph.Addressed` — what the addresses of indirections and locks say;
* `ValueLens.Owned.Places` — what placing does.

Main results:

* `ValueLens.Owned.place_places` — **placing keeps addresses in order**;
* `ValueLens.Owned.addressOf_injective` — nodes that fit into memory have addresses of their own.
-/
import ValueLens.Owned.Value
import ValueLens.Proofs.Stacking

set_option relaxedAutoImplicit false
set_option autoImplicit false

namespace ValueLens

/-! ### Orderly values -/

/-- A lock. -/
def Shape.isGuarded : Shape → Bool
  | .guarded _ _ _ => true
  | _ => false

theorem Shape.leadsOn_of_isGuarded {shape : Shape} (h : shape.isGuarded = true) :
    shape.leadsOn = true := by
  cases shape with
  | guarded a content lock => rfl
  | _ => cases h

/-- A value that has no parts and leads nowhere. -/
def Shape.isScalar : Shape → Bool
  | .invalid | .bool _ | .int _ _ | .uint _ _ | .float _ _ | .complex _ _ _ | .text _
  | .handle _ => true
  | _ => false

namespace Owned

mutual

/-- **A lock lies at the very beginning of a value.** -/
def lockFirst (layout : Layout) : Owned → Bool
  | .lock _ _ _ => true
  | .sequence name keeping items =>
      match leading? layout (.sequence name keeping items) with
      | some k => lockFirstItem layout items k
      | none => false
  | .record name capability fields =>
      match leading? layout (.record name capability fields) with
      | some k => lockFirstField layout fields k
      | none => false
  | .holder name (some v) =>
      (leading? layout (.holder name (some v))).isSome && lockFirst layout v
  | _ => false

/-- This is so of the item at a position. -/
def lockFirstItem (layout : Layout) : List Owned → Nat → Bool
  | [], _ => false
  | v :: _, 0 => lockFirst layout v
  | _ :: rest, k + 1 => lockFirstItem layout rest k

/-- This is so of the field at a position. -/
def lockFirstField (layout : Layout) : List (String × Visibility × Owned) → Nat → Bool
  | [], _ => false
  | (_, _, v) :: _, 0 => lockFirst layout v
  | _ :: rest, k + 1 => lockFirstField layout rest k

end

mutual

/-- **No part of a value refers to an allocation around it**, nor to anything from elsewhere.  With
`aside` no allocation begins with a lock either. -/
def orderly (layout : Layout) (aside : Bool) : Owned → Bool
  | .plain _ shape => shape.isScalar
  | .error _ _ => true
  | .document _ => true
  | .sequence _ _ items => orderlyItems layout aside items
  | .mapping _ entries => orderlyEntries layout aside entries
  | .record _ _ fields => orderlyFields layout aside fields
  | .holder _ none => true
  | .holder _ (some v) => v.orderly layout aside
  | .lock _ _ v => v.orderly layout aside
  | .dangling _ => true
  | .pointer _ v => v.orderly layout aside && !(aside && v.lockFirst layout)
  | .shared _ _ v => v.orderly layout aside && !(aside && v.lockFirst layout)
  | .knot _ _ _ => false
  | .link _ _ => true
  | .view _ _ => false
  | .borrowed _ => false

/-- This is so of all items of a sequence. -/
def orderlyItems (layout : Layout) (aside : Bool) : List Owned → Bool
  | [] => true
  | v :: rest => v.orderly layout aside && orderlyItems layout aside rest

/-- This is so of all entries of a map. -/
def orderlyEntries (layout : Layout) (aside : Bool) : List (Owned × Owned) → Bool
  | [] => true
  | (k, v) :: rest =>
      k.orderly layout aside && v.orderly layout aside && orderlyEntries layout aside rest

/-- This is so of all fields of a record. -/
def orderlyFields (layout : Layout) (aside : Bool) :
    List (String × Visibility × Owned) → Bool
  | [] => true
  | (_, _, v) :: rest => v.orderly layout aside && orderlyFields layout aside rest

end

/-! ### Addresses -/

/-- So many nodes have addresses of their own. -/
def FitsMemory (size : Nat) : Prop := addressBase + addressStep * size ≤ 2 ^ 64

instance (size : Nat) : Decidable (FitsMemory size) :=
  inferInstanceAs (Decidable (addressBase + addressStep * size ≤ 2 ^ 64))

/-- **Nodes that fit into memory have addresses of their own.** -/
theorem addressOf_injective {size i j : Nat} (hfit : FitsMemory size) (hi : i < size)
    (hj : j < size) (h : addressOf i = addressOf j) : i = j := by
  have hnat := congrArg UInt64.toNat h
  simp only [addressOf, UInt64.toNat_ofNat'] at hnat
  simp only [FitsMemory, addressBase, addressStep] at hfit hnat
  omega

end Owned

/-! ### Addresses in order -/

namespace Graph

/-- A node that an indirection leads to. -/
def Target (g : Graph) (target : NodeId) : Prop :=
  ∃ id a, g.shape id = .pointer a (some target)

/-- **What the addresses of a graph say**, given what lies at the very beginning of each node.  An
indirection has the address of what its target begins with, and indirections with one address lead
to one node; a lock has its own address.  With `aside` no target begins with a lock. -/
structure Addressed (aside : Bool) (start : NodeId → NodeId) (g : Graph) : Prop where
  stacked : g.Stacked
  start_le : ∀ id, start id ≤ id
  beyond : ∀ id, g.size ≤ id → start id = id
  pointer : ∀ {id a target}, g.shape id = .pointer a (some target) →
    a = Owned.addressOf (start target)
  lock : ∀ {id a content lock}, g.shape id = .guarded a content lock →
    a = Owned.addressOf id ∧ start id = id
  roots : ∀ {t t'}, g.Target t → g.Target t' → start t = start t' → t = t'
  apart : aside = true → ∀ {t}, g.Target t → (g.shape (start t)).isGuarded = false

theorem lt_size_of_ne_invalid {g : Graph} {id : NodeId} (h : g.shape id ≠ .invalid) :
    id < g.size := by
  by_contra hge
  exact h (shape_of_size_le (Nat.le_of_not_lt hge))

/-- What an indirection leads to is a node of the graph. -/
theorem Target.lt_size {g : Graph} (hg : g.Stacked) {t : NodeId} (h : g.Target t) :
    t < g.size := by
  obtain ⟨id, a, hs⟩ := h
  have hid : id < g.size := lt_size_of_ne_invalid (by simp [hs])
  exact Nat.lt_trans (hg id t (by simp [hs, Shape.rests])) hid

theorem Target.extend {g g' : Graph} (hold : g.Extends g') {t : NodeId} (h : g.Target t) :
    g'.Target t := by
  obtain ⟨id, a, hs⟩ := h
  exact ⟨id, a, (hold.shape_eq (lt_size_of_ne_invalid (by simp [hs]))).trans hs⟩

/-- An indirection is an old one or a new one. -/
theorem Target.old_or_new {g g' : Graph} (hold : g.Extends g') {t : NodeId} (h : g'.Target t) :
    g.Target t ∨ ∃ id a, g.size ≤ id ∧ g'.shape id = .pointer a (some t) := by
  obtain ⟨id, a, hs⟩ := h
  by_cases hid : g.size ≤ id
  · exact Or.inr ⟨id, a, hid, hs⟩
  · exact Or.inl ⟨id, a, (hold.shape_eq (Nat.lt_of_not_le hid)).symm.trans hs⟩

namespace Addressed

variable {aside : Bool} {start start' : NodeId → NodeId} {g g' : Graph}

theorem empty (aside : Bool) : Addressed aside id {} := by
  have hshape (id : NodeId) : ({} : Graph).shape id = .invalid := shape_of_size_le (Nat.zero_le id)
  have htarget (t : NodeId) : ¬({} : Graph).Target t := by
    rintro ⟨id, a, hs⟩
    simp [hshape] at hs
  exact {
    stacked := stacked_empty
    start_le := fun _ => Nat.le_refl _
    beyond := fun _ _ => rfl
    pointer := fun hs => by simp [hshape] at hs
    lock := fun hs => by simp [hshape] at hs
    roots := fun ht => (htarget _ ht).elim
    apart := fun _ _ ht => (htarget _ ht).elim }

/-- **A graph whose addresses are in order may grow**: it is enough to look at the new nodes. -/
theorem grow (h : Addressed aside start g) (hold : g.Extends g') (hstacked : g'.Stacked)
    (hstart : ∀ id < g.size, start' id = start id) (hle : ∀ id, g.size ≤ id → start' id ≤ id)
    (hbeyond : ∀ id, g'.size ≤ id → start' id = id)
    (hpointer : ∀ {id a t}, g.size ≤ id → g'.shape id = .pointer a (some t) →
      a = Owned.addressOf (start' t) ∧ (∀ t', g'.Target t' → start' t = start' t' → t = t') ∧
        (aside = true → (g'.shape (start' t)).isGuarded = false))
    (hlock : ∀ {id a content lock}, g.size ≤ id → g'.shape id = .guarded a content lock →
      a = Owned.addressOf id ∧ start' id = id) :
    Addressed aside start' g' := by
  have hcases (id : NodeId) : g.size ≤ id ∨ id < g.size := (Nat.lt_or_ge id g.size).symm
  refine ⟨hstacked, ?_, hbeyond, ?_, ?_, ?_, ?_⟩
  · intro id
    rcases hcases id with hid | hid
    · exact hle id hid
    · rw [hstart id hid]
      exact h.start_le id
  · intro id a t hs
    rcases hcases id with hid | hid
    · exact (hpointer hid hs).1
    · rw [hold.shape_eq hid] at hs
      rw [hstart t (Target.lt_size h.stacked ⟨id, a, hs⟩)]
      exact h.pointer hs
  · intro id a content lock hs
    rcases hcases id with hid | hid
    · exact hlock hid hs
    · rw [hold.shape_eq hid] at hs
      rw [hstart id hid]
      exact h.lock hs
  · intro t t' ht ht' heq
    rcases ht.old_or_new hold with htold | ⟨id, a, hid, hs⟩
    · rcases ht'.old_or_new hold with htold' | ⟨id, a, hid, hs⟩
      · rw [hstart t (htold.lt_size h.stacked), hstart t' (htold'.lt_size h.stacked)] at heq
        exact h.roots htold htold' heq
      · exact ((hpointer hid hs).2.1 t ht heq.symm).symm
    · exact (hpointer hid hs).2.1 t' ht' heq
  · intro haside t ht
    rcases ht.old_or_new hold with htold | ⟨id, a, hid, hs⟩
    · have hlt := htold.lt_size h.stacked
      rw [hstart t hlt, hold.shape_eq (Nat.lt_of_le_of_lt (h.start_le t) hlt)]
      exact h.apart haside htold
    · exact (hpointer hid hs).2.2 haside

end Addressed

end Graph

/-! ### Owned values -/

namespace Owned

open ValueLens.Graph

/-- **What placing has built**: addresses are in order, and labels name what indirections lead
to. -/
structure Laid (aside : Bool) (p : Placement) : Prop where
  addressed : p.graph.Addressed aside p.start
  labels : ∀ x ∈ p.labels, p.graph.Target x.2

theorem laid_empty (aside : Bool) : Laid aside {} := ⟨Addressed.empty aside, by simp⟩

/-- A node that begins with a lock. -/
def LockAt (p : Placement) (id : NodeId) : Prop :=
  (p.graph.shape (p.start id)).isGuarded = true

/-- **What placing does.**  Nodes stay and begin where they did, new indirections lead to what has a
label or is new, and no indirection leads to where a node begins that is handed out. -/
structure Places (aside : Bool) (p : Placement) (ids : List NodeId) (p' : Placement) : Prop where
  laid : Laid aside p'
  old : p.graph.Extends p'.graph
  starts : ∀ id < p.graph.size, p'.start id = p.start id
  targets : ∀ t, p'.graph.Target t → p.graph.Target t ∨ p.graph.size ≤ p'.start t
  fresh : ∀ id ∈ ids, id < p'.graph.size ∧ p.graph.size ≤ p'.start id ∧
    ∀ t, p'.graph.Target t → p'.start id ≠ p'.start t

namespace Places

variable {aside : Bool} {p p' p'' : Placement} {ids ids' : List NodeId}

theorem refl (h : Laid aside p) : Places aside p [] p :=
  ⟨h, Extends.refl _, fun _ _ => rfl, fun _ ht => Or.inl ht, by simp⟩

/-- Nodes begin as they did. -/
theorem lockAt_iff (h : Places aside p ids p') (hp : Laid aside p) {id : NodeId}
    (hid : id < p.graph.size) : LockAt p' id ↔ LockAt p id := by
  have hlt := Nat.lt_of_le_of_lt (hp.addressed.start_le id) hid
  rw [LockAt, LockAt, h.starts id hid, h.old.shape_eq hlt]

theorem trans (h : Places aside p ids p') (h' : Places aside p' ids' p'') :
    Places aside p (ids ++ ids') p'' := by
  have hsize := h.old.size_le
  have hstacked := h.laid.addressed.stacked
  refine ⟨h'.laid, h.old.trans h'.old, ?_, ?_, ?_⟩
  · intro id hid
    rw [h'.starts id (Nat.lt_of_lt_of_le hid hsize), h.starts id hid]
  · intro t ht
    rcases h'.targets t ht with htarget | hge
    · rw [h'.starts t (htarget.lt_size hstacked)]
      exact h.targets t htarget
    · exact Or.inr (Nat.le_trans hsize hge)
  · intro id hid
    rcases List.mem_append.1 hid with hid | hid
    · obtain ⟨hlt, hge, hfree⟩ := h.fresh id hid
      refine ⟨Nat.lt_of_lt_of_le hlt h'.old.size_le, ?_, ?_⟩
      · rwa [h'.starts id hlt]
      · intro t ht heq
        rw [h'.starts id hlt] at heq
        rcases h'.targets t ht with htarget | hnew
        · rw [h'.starts t (htarget.lt_size hstacked)] at heq
          exact hfree t htarget heq
        · -- what is new begins behind everything that was there
          have hle := h.laid.addressed.start_le id
          exact Nat.not_lt.2 (Nat.le_trans (heq ▸ hnew) hle) hlt
    · obtain ⟨hlt, hge, hfree⟩ := h'.fresh id hid
      exact ⟨hlt, Nat.le_trans hsize hge, hfree⟩

/-- **A node on top of what was placed**, which begins with one of the nodes handed out or with
itself.  An indirection leads to what has a label or was handed out. -/
structure Tops (aside : Bool) (ids : List NodeId) (p q : Placement) (n : Node) (first : NodeId) :
    Prop where
  graph_eq : q.graph = (p.graph.add n).2
  labels_eq : q.labels = p.labels
  start_eq : ∀ id, q.start id = if id = p.graph.size then first else p.start id
  first_cases : first = p.graph.size ∨ ∃ part ∈ ids, first = p.start part
  rests_lt : ∀ child ∈ n.shape.rests, child < p.graph.size
  pointer : ∀ {a t}, n.shape = .pointer a (some t) → first = p.graph.size ∧
    a = addressOf (p.start t) ∧ (p.graph.Target t ∨ t ∈ ids) ∧ (aside = true → ¬LockAt p t)
  lock : ∀ {a content lock}, n.shape = .guarded a content lock →
    first = p.graph.size ∧ a = addressOf p.graph.size

namespace Tops

variable {q : Placement} {n : Node} {first id t : NodeId} (ht : Tops aside ids p' q n first)

include ht

theorem old : p'.graph.Extends q.graph := ht.graph_eq ▸ add_extends _ _

theorem size_eq : q.graph.size = p'.graph.size + 1 := by rw [ht.graph_eq, add_size]

theorem start_old (hid : id < p'.graph.size) : q.start id = p'.start id := by
  rw [ht.start_eq, if_neg (Nat.ne_of_lt hid)]

theorem start_new : q.start p'.graph.size = first := by rw [ht.start_eq, if_pos rfl]

/-- A new node that leads on is the one on top. -/
theorem new_eq {shape : Shape} (hid : p'.graph.size ≤ id) (hs : q.graph.shape id = shape)
    (hlead : shape.leadsOn = true) : id = p'.graph.size ∧ n.shape = shape := by
  rw [ht.graph_eq] at hs
  rcases p'.graph.add_cases n id with ⟨hlt, -⟩ | ⟨rfl, hshape⟩ | hshape
  · exact absurd hlt (Nat.not_lt.2 hid)
  · exact ⟨rfl, hshape.symm.trans hs⟩
  · rw [← hs, hshape] at hlead
    cases hlead

theorem target_cases (htarget : q.graph.Target t) :
    p'.graph.Target t ∨ ∃ a, n.shape = .pointer a (some t) := by
  rcases htarget.old_or_new ht.old with htarget | ⟨id, a, hid, hs⟩
  · exact Or.inl htarget
  · exact Or.inr ⟨a, (ht.new_eq hid hs rfl).2⟩

/-- What indirections lead to was there before. -/
theorem target_lt (hp : Laid aside p') (htarget : q.graph.Target t) : t < p'.graph.size := by
  rcases ht.target_cases htarget with htarget | ⟨a, hs⟩
  · exact htarget.lt_size hp.addressed.stacked
  · exact ht.rests_lt t (by simp [hs, Shape.rests])

variable (h : Places aside p ids p')

include h

theorem first_le : first ≤ p'.graph.size := by
  obtain rfl | ⟨part, hpart, rfl⟩ := ht.first_cases
  · exact Nat.le_refl _
  · exact Nat.le_of_lt
      (Nat.lt_of_le_of_lt (h.laid.addressed.start_le part) (h.fresh part hpart).1)

/-- No indirection leads to where the node on top begins. -/
theorem first_ne (htarget : q.graph.Target t) : first ≠ q.start t := by
  have hlt := ht.target_lt h.laid htarget
  have hself : first = p'.graph.size → first ≠ p'.start t := by
    rintro rfl
    exact Nat.ne_of_gt (Nat.lt_of_le_of_lt (h.laid.addressed.start_le t) hlt)
  rw [ht.start_old hlt]
  rcases ht.first_cases with hfirst | ⟨part, hpart, hfirst⟩
  · exact hself hfirst
  · rcases ht.target_cases htarget with hold | ⟨a, hs⟩
    · exact hfirst ▸ (h.fresh part hpart).2.2 t hold
    · -- a new indirection begins with itself
      exact hself (ht.pointer hs).1

/-- A new indirection is the only one, or leads to what the others with its address lead to. -/
theorem root_unique {a : Address} {t' : NodeId} (hs : n.shape = .pointer a (some t))
    (htarget : q.graph.Target t') (heq : p'.start t = p'.start t') : t = t' := by
  obtain ⟨-, -, hknown, -⟩ := ht.pointer hs
  rcases ht.target_cases htarget with hold | ⟨a', hs'⟩
  · rcases hknown with hknown | hknown
    · exact h.laid.addressed.roots hknown hold heq
    · exact absurd heq ((h.fresh t hknown).2.2 t' hold)
  · exact (by simpa using hs.symm.trans hs' : a = a' ∧ t = t').2

/-- The addresses stay in order. -/
theorem addressed : q.graph.Addressed aside q.start := by
  have haddressed := h.laid.addressed
  refine haddressed.grow ht.old (ht.graph_eq ▸ haddressed.stacked.add ht.rests_lt)
    (fun id => ht.start_old) ?_ ?_ ?_ ?_
  · intro id hid
    rw [ht.start_eq]
    split
    · next heq => exact heq ▸ ht.first_le h
    · exact haddressed.start_le id
  · intro id hid
    rw [ht.size_eq] at hid
    rw [ht.start_eq, if_neg (Nat.ne_of_gt hid)]
    exact haddressed.beyond id (Nat.le_of_lt hid)
  · intro id a t hid hs
    have hnew := (ht.new_eq hid hs rfl).2
    have hlt := ht.target_lt h.laid ⟨id, a, hs⟩
    obtain ⟨-, ha, -, hapart⟩ := ht.pointer hnew
    rw [ht.start_old hlt]
    refine ⟨ha, fun t' htarget heq => ?_, fun haside => ?_⟩
    · rw [ht.start_old (ht.target_lt h.laid htarget)] at heq
      exact ht.root_unique h hnew htarget heq
    · have hbegin := Nat.lt_of_le_of_lt (haddressed.start_le t) hlt
      rw [ht.old.shape_eq hbegin]
      exact Bool.eq_false_of_not_eq_true (hapart haside)
  · intro id a content lock hid hs
    obtain ⟨rfl, hshape⟩ := ht.new_eq hid hs rfl
    obtain ⟨hself, ha⟩ := ht.lock hshape
    exact ⟨ha, ht.start_new.trans hself⟩

end Tops

/-- **A node on top is placed.** -/
theorem add (h : Places aside p ids p') {q : Placement} {n : Node} {first : NodeId}
    (ht : Tops aside ids p' q n first) : Places aside p [p'.graph.size] q := by
  refine ⟨⟨ht.addressed h, ?_⟩, h.old.trans ht.old, ?_, ?_, ?_⟩
  · rw [ht.labels_eq]
    exact fun x hx => (h.laid.labels x hx).extend ht.old
  · intro id hid
    rw [ht.start_old (Nat.lt_of_lt_of_le hid h.old.size_le), h.starts id hid]
  · intro t htarget
    rw [ht.start_old (ht.target_lt h.laid htarget)]
    rcases ht.target_cases htarget with hold | ⟨a, hs⟩
    · exact h.targets t hold
    · obtain ⟨-, -, hknown | hknown, -⟩ := ht.pointer hs
      · exact h.targets t hknown
      · exact Or.inr (h.fresh t hknown).2.1
  · intro id hid
    rw [List.mem_singleton.1 hid, ht.start_new, ht.size_eq]
    refine ⟨Nat.lt_succ_self _, ?_, fun t => ht.first_ne h⟩
    rcases ht.first_cases with rfl | ⟨part, hpart, rfl⟩
    · exact h.old.size_le
    · exact (h.fresh part hpart).2.1

/-- A node that is added begins with itself. -/
theorem start_of_graph {aside : Bool} {p : Placement} (h : p.graph.Addressed aside p.start)
    (g : Graph) (id : NodeId) : Placement.start { p with graph := g } id =
      if id = p.graph.size then p.graph.size else p.start id := by
  split
  · next heq =>
      rw [heq]
      exact h.beyond _ (Nat.le_refl _)
  · rfl

/-- **A whole on top of its parts**, which begins with one of them or with itself. -/
theorem add_whole (h : Places aside p ids p') {n : Node} (hlead : n.shape.leadsOn = false)
    (hparts : ∀ child ∈ n.shape.parts, child ∈ ids) {first : Option NodeId}
    (hfirst : ∀ part ∈ first, part ∈ ids) :
    Places aside p [(addWhole n first p').1] (addWhole n first p').2 ∧
      (LockAt (addWhole n first p').2 (addWhole n first p').1 →
        ∃ part ∈ first, LockAt p' part) := by
  have hadded {q : Placement} {begin : NodeId} (hgraph : q.graph = (p'.graph.add n).2)
      (hlabels : q.labels = p'.labels)
      (hstart : ∀ id, q.start id = if id = p'.graph.size then begin else p'.start id)
      (hbegin : begin = p'.graph.size ∨ ∃ part ∈ ids, begin = p'.start part) :
      Places aside p [p'.graph.size] q := by
    refine h.add ⟨hgraph, hlabels, hstart, hbegin, ?_, ?_, ?_⟩
    · rw [Shape.rests_eq_parts hlead]
      exact fun child hchild => (h.fresh child (hparts child hchild)).1
    · intro a t hs
      simp [hs, Shape.leadsOn] at hlead
    · intro a content lock hs
      simp [hs, Shape.leadsOn] at hlead
  have haddressed := h.laid.addressed
  cases first with
  | none =>
      have hstart := start_of_graph haddressed (p'.graph.add n).2
      refine ⟨hadded rfl rfl hstart (Or.inl rfl), fun hlocked => ?_⟩
      have hguard : ((p'.graph.add n).2.shape
          (Placement.start { p' with graph := (p'.graph.add n).2 } p'.graph.size)).isGuarded =
            true := hlocked
      rw [hstart, if_pos rfl, add_shape] at hguard
      exact absurd (Shape.leadsOn_of_isGuarded hguard) (by simp [hlead])
  | some part =>
      have hpart : part ∈ ids := hfirst part rfl
      have hlt : p'.start part < p'.graph.size :=
        Nat.lt_of_le_of_lt (haddressed.start_le part) (h.fresh part hpart).1
      have hstart (id : NodeId) : Placement.start
          { p' with
            graph := (p'.graph.add n).2
            starts := (p'.graph.size, p'.start part) :: p'.starts } id =
              if id = p'.graph.size then p'.start part else p'.start id := by
        simp only [Placement.start, List.lookup_cons]
        split
        · next heq => simp [beq_iff_eq.1 heq]
        · next hne => simp [beq_eq_false_iff_ne.1 hne]
      refine ⟨hadded rfl rfl hstart (Or.inr ⟨part, hpart, rfl⟩), fun hlocked => ⟨part, rfl, ?_⟩⟩
      have hguard : ((p'.graph.add n).2.shape (Placement.start
          { p' with
            graph := (p'.graph.add n).2
            starts := (p'.graph.size, p'.start part) :: p'.starts } p'.graph.size)).isGuarded =
              true := hlocked
      rwa [hstart, if_pos rfl, (add_extends _ _).shape_eq hlt] at hguard

/-- An indirection to a node that has a label or was handed out. -/
theorem add_pointer (h : Places aside p ids p') (name : String) {target : NodeId}
    (hknown : p'.graph.Target target ∨ target ∈ ids) (hapart : aside = true → ¬LockAt p' target) :
    Places aside p [(addPointer name target p').1] (addPointer name target p').2 ∧
      (addPointer name target p').2.graph.Target target ∧
      ¬LockAt (addPointer name target p').2 (addPointer name target p').1 := by
  have haddressed := h.laid.addressed
  have hlt : target < p'.graph.size := by
    rcases hknown with hknown | hknown
    · exact hknown.lt_size haddressed.stacked
    · exact (h.fresh target hknown).1
  let n : Node :=
    { shape := .pointer (addressOf (p'.start target)) (some target), typeName := name }
  have hstart := start_of_graph haddressed (p'.graph.add n).2
  refine ⟨h.add (n := n) ⟨rfl, rfl, hstart, Or.inl rfl, ?_, ?_, by simp [n]⟩, ?_, ?_⟩
  · intro child hchild
    obtain rfl : child = target := by simpa [n, Shape.rests] using hchild
    exact hlt
  · intro a t hs
    obtain ⟨rfl, rfl⟩ : addressOf (p'.start target) = a ∧ target = t := by simpa [n] using hs
    exact ⟨rfl, rfl, hknown, hapart⟩
  · exact ⟨p'.graph.size, _, add_shape _ n⟩
  · intro hlocked
    have hguard : ((p'.graph.add n).2.shape
        (Placement.start { p' with graph := (p'.graph.add n).2 } p'.graph.size)).isGuarded =
          true := hlocked
    rw [hstart, if_pos rfl, add_shape] at hguard
    cases hguard

/-- A lock around a node that was handed out. -/
theorem add_lock (h : Places aside p ids p') (name : String) (lock : Lock) {content : NodeId}
    (hcontent : content ∈ ids) :
    Places aside p [p'.graph.size]
      { p' with
        graph := (p'.graph.add
          { shape := .guarded (addressOf p'.graph.size) (some content) lock
            typeName := name }).2 } := by
  refine h.add ⟨rfl, rfl, start_of_graph h.laid.addressed _, Or.inl rfl, ?_, by simp, ?_⟩
  · intro child hchild
    obtain rfl : child = content := by simpa [Shape.rests] using hchild
    exact (h.fresh child hcontent).1
  · intro a c l hs
    obtain ⟨rfl, -⟩ := Shape.guarded.inj hs
    exact ⟨rfl, rfl⟩

/-- A new label for what an indirection leads to. -/
theorem label (h : Places aside p ids p') (name : String) {id : NodeId}
    (hid : p'.graph.Target id) :
    Places aside p ids { p' with labels := (name, id) :: p'.labels } := by
  refine ⟨⟨h.laid.addressed, ?_⟩, h.old, h.starts, h.targets, h.fresh⟩
  intro x hx
  rcases List.mem_cons.1 hx with rfl | hx
  · exact hid
  · exact h.laid.labels x hx

/-- A value without indirections. -/
theorem of_grows (h : Laid aside p) {g : Graph} (hgrows : Grows p.graph ids g) :
    Places aside p ids { p with graph := g } := by
  have hlead {id : NodeId} (hid : p.graph.size ≤ id) {shape : Shape} (hs : g.shape id = shape)
      (hshape : shape.leadsOn = true) : False := by
    have hplain := hgrows.plain id hid
    rw [hs, hshape] at hplain
    cases hplain
  have haddressed : g.Addressed aside p.start := by
    refine h.addressed.grow hgrows.old hgrows.stacked (fun _ _ => rfl)
      (fun id _ => h.addressed.start_le id) ?_ ?_ ?_
    · exact fun id hid => h.addressed.beyond id (Nat.le_trans hgrows.old.size_le hid)
    · exact fun hid hs => (hlead hid hs rfl).elim
    · exact fun hid hs => (hlead hid hs rfl).elim
  have htarget {t : NodeId} (ht : g.Target t) : p.graph.Target t := by
    rcases ht.old_or_new hgrows.old with ht | ⟨id, a, hid, hs⟩
    · exact ht
    · exact (hlead hid hs rfl).elim
  refine ⟨⟨haddressed, fun x hx => (h.labels x hx).extend hgrows.old⟩, hgrows.old,
    fun _ _ => rfl, fun t ht => Or.inl (htarget ht), ?_⟩
  intro id hid
  obtain ⟨hge, hlt⟩ := hgrows.lt id hid
  have hself : p.start id = id := h.addressed.beyond id hge
  refine ⟨hlt, hself.symm ▸ hge, fun t ht heq => ?_⟩
  -- what an indirection leads to was there before
  have hold := (htarget ht).lt_size h.addressed.stacked
  have hle := h.addressed.start_le t
  rw [Placement.start] at hself
  exact absurd hold (Nat.not_lt.2 (Nat.le_trans hge (hself ▸ heq.le.trans hle)))

end Places

/-- What an indirection may lead to: with `aside` nothing that begins with a lock. -/
theorem apart_of_orderly {layout : Layout} {aside : Bool} {v : Owned} {p : Placement} {id : NodeId}
    (hv : (v.orderly layout aside && !(aside && v.lockFirst layout)) = true)
    (hlock : LockAt p id → v.lockFirst layout = true) (haside : aside = true) : ¬LockAt p id := by
  intro hlocked
  simp [haside, hlock hlocked] at hv

/-- An allocation of an orderly value holds the value itself. -/
theorem pointTo_of_orderly {layout : Layout} {aside : Bool} {v : Owned}
    (hv : v.orderly layout aside = true) (name : String) (id : NodeId) :
    pointTo name v id = addPointer name id := by
  cases v with
  | borrowed target => simp [orderly] at hv
  | _ => rfl

/-- A sequence leads nowhere and consists of its items. -/
theorem sequenceOf_plain (g : Graph) (name : String) (keeping : Keeping) (ids : List NodeId) :
    (sequenceOf g name keeping ids).shape.leadsOn = false ∧
      (sequenceOf g name keeping ids).shape.parts = ids := by
  obtain ⟨fixed, capacity, contiguousBytes⟩ := keeping
  cases fixed with
  | _ => exact ⟨rfl, rfl⟩

/-- The part at the beginning is one of those that were placed. -/
theorem mem_of_leading {first? : Option Nat} {ids : List NodeId} {part : NodeId}
    (h : part ∈ first?.bind (ids[·]?)) : ∃ k, first? = some k ∧ ids[k]? = some part :=
  Option.bind_eq_some_iff.1 h

section Orderly

variable {layout : Layout} {aside : Bool}

/-- The full rule of a whole whose part at the beginning is known by its position. -/
theorem Places.add_leading {p p' : Placement} {ids : List NodeId} {n : Node} {v : Owned}
    (h : Places aside p ids p') (hlead : n.shape.leadsOn = false)
    (hparts : ∀ child ∈ n.shape.parts, child ∈ ids)
    (hlock : ∀ k part, leading? layout v = some k → ids[k]? = some part → LockAt p' part →
      v.lockFirst layout = true) :
    let placed := addWhole n ((leading? layout v).bind (ids[·]?)) p'
    Places aside p [placed.1] placed.2 ∧
      (LockAt placed.2 placed.1 → v.lockFirst layout = true) := by
  obtain ⟨hplaces, hlocked⟩ := h.add_whole hlead hparts fun part hpart => by
    obtain ⟨k, -, hk⟩ := mem_of_leading hpart
    exact List.mem_of_getElem? hk
  refine ⟨hplaces, fun hat => ?_⟩
  obtain ⟨part, hpart, hat'⟩ := hlocked hat
  obtain ⟨k, hleading, hk⟩ := mem_of_leading hpart
  exact hlock k part hleading hk hat'

/-- A whole with nothing known at its beginning. -/
theorem Places.add_plain {p p' : Placement} {ids : List NodeId} {n : Node} {locked : Prop}
    (h : Places aside p ids p') (hlead : n.shape.leadsOn = false)
    (hparts : ∀ child ∈ n.shape.parts, child ∈ ids) :
    Places aside p [(addWhole n none p').1] (addWhole n none p').2 ∧
      (LockAt (addWhole n none p').2 (addWhole n none p').1 → locked) := by
  have hnone : ∀ part ∈ (none : Option NodeId), part ∈ ids := by simp
  obtain ⟨hplaces, hlocked⟩ := h.add_whole hlead hparts hnone
  refine ⟨hplaces, fun hat => ?_⟩
  obtain ⟨part, hpart, -⟩ := hlocked hat
  cases hpart

mutual

/-- **Placing keeps addresses in order**, and what is placed begins with a lock only if the value
does. -/
theorem place_places : ∀ (v : Owned) (p : Placement), v.orderly layout aside = true →
    Laid aside p →
      Places aside p [(place layout v p).1] (place layout v p).2 ∧
        (LockAt (place layout v p).2 (place layout v p).1 → v.lockFirst layout = true)
  | .plain name shape, p, hv, h => by
      refine (Places.refl h).add_plain (n := { shape := shape, typeName := name }) ?_ ?_
      · cases shape with
        | pointer a target => simp [orderly, Shape.isScalar] at hv
        | guarded a content busy => simp [orderly, Shape.isScalar] at hv
        | _ => rfl
      · cases shape with
        | array q => simp [orderly, Shape.isScalar] at hv
        | slice q => simp [orderly, Shape.isScalar] at hv
        | map es => simp [orderly, Shape.isScalar] at hv
        | record fds => simp [orderly, Shape.isScalar] at hv
        | holder content => simp [orderly, Shape.isScalar] at hv
        | _ => simp [Shape.parts]
  | .error name description, p, _, h =>
      (Places.refl h).add_plain (n :=
        { shape := .handle (addressOf p.graph.size)
          typeName := name
          capability := .error description }) rfl (by simp [Shape.parts])
  | .document v, p, _, h => by
      have hgrows := Json.Value.place_grows v p.graph h.addressed.stacked
      have hplaces : Places aside p [(v.place p.graph).1] { p with graph := (v.place p.graph).2 } :=
        .of_grows h hgrows
      refine ⟨hplaces, fun hlocked => ?_⟩
      -- a document has no locks, and what is new begins with something new
      have hnew := (hplaces.fresh _ (List.mem_singleton.2 rfl)).2.1
      exact absurd (Shape.leadsOn_of_isGuarded hlocked)
        (Bool.eq_false_iff.1 (hgrows.plain _ hnew))
  | .sequence name keeping items, p, hv, h => by
      obtain ⟨hitems, hlock⟩ := placeItems_places items p hv h
      obtain ⟨hlead, hparts⟩ := sequenceOf_plain (placeItems layout items p).2.graph name keeping
        (placeItems layout items p).1
      refine hitems.add_leading (v := .sequence name keeping items) hlead
        (by rw [hparts]; exact fun _ => id) fun k part hleading hk hat => ?_
      simp [lockFirst, hleading, hlock k part hk hat]
  | .mapping name entries, p, hv, h =>
      (placeEntries_places entries p hv h).add_plain
        (n := { shape := .map (some (placeEntries layout entries p).1), typeName := name }) rfl
        (by simp [Shape.parts])
  | .record name capability fields, p, hv, h => by
      obtain ⟨hfields, hlock⟩ := placeFields_places fields p hv h
      refine hfields.add_leading (n :=
        { shape := .record (placeFields layout fields p).1
          typeName := name
          capability := capability }) (v := .record name capability fields) rfl
        (by simp [Shape.parts]) fun k part hleading hk hat => ?_
      simp [lockFirst, hleading, hlock k part hk hat]
  | .holder name none, p, _, h =>
      (Places.refl h).add_plain (n := { shape := .holder none, typeName := name }) rfl
        (by simp [Shape.parts])
  | .holder name (some v), p, hv, h => by
      obtain ⟨hcontent, hlock⟩ := place_places v p hv h
      refine hcontent.add_leading (n :=
        { shape := .holder (some (place layout v p).1), typeName := name })
        (v := .holder name (some v)) rfl (by simp [Shape.parts]) fun k part hleading hk hat => ?_
      obtain rfl : part = (place layout v p).1 := by simpa using List.mem_of_getElem? hk
      simp [lockFirst, hleading, hlock hat]
  | .lock name kind v, p, hv, h => by
      have hcontent := (place_places v p hv h).1
      exact ⟨hcontent.add_lock name kind (by simp), fun _ => rfl⟩
  | .dangling name, p, _, h =>
      (Places.refl h).add_plain (n := { shape := .pointer 0 none, typeName := name }) rfl
        (by simp [Shape.parts])
  | .pointer name v, p, hv, h => by
      have hv' := (Bool.and_eq_true_iff.1 hv).1
      obtain ⟨htarget, hlock⟩ := place_places v p hv' h
      obtain ⟨hplaces, -, hat⟩ := htarget.add_pointer name (Or.inr (by simp))
        (apart_of_orderly hv hlock)
      rw [← pointTo_of_orderly hv'] at hplaces hat
      exact ⟨hplaces, fun hlocked => (hat hlocked).elim⟩
  | .shared name label v, p, hv, h => by
      have hv' := (Bool.and_eq_true_iff.1 hv).1
      obtain ⟨htarget, hlock⟩ := place_places v p hv' h
      obtain ⟨hplaces, hknown, hat⟩ := htarget.add_pointer name (Or.inr (by simp))
        (apart_of_orderly hv hlock)
      rw [← pointTo_of_orderly hv'] at hplaces hat hknown
      exact ⟨hplaces.label label hknown, fun hlocked => (hat hlocked).elim⟩
  | .link name label, p, _, h => by
      have hrun : place layout (.link name label) p =
          (match p.labels.lookup label with
            | some id => addPointer name id
            | none => add name (.pointer 0 none)) p := rfl
      rw [hrun]
      cases hl : p.labels.lookup label with
      | none =>
          exact (Places.refl h).add_plain (n := { shape := .pointer 0 none, typeName := name }) rfl
            (by simp [Shape.parts])
      | some id =>
          -- a label names what an indirection leads to
          obtain ⟨before, after, hlabels, -⟩ := List.lookup_eq_some_iff.1 hl
          have hknown := h.labels (label, id) (by simp [hlabels])
          have hapart (haside : aside = true) : ¬LockAt p id := by
            simp [LockAt, h.addressed.apart haside hknown]
          obtain ⟨hplaces, -, hat⟩ := (Places.refl h).add_pointer name (Or.inl hknown) hapart
          exact ⟨hplaces, fun hlocked => (hat hlocked).elim⟩
  | .knot name label v, p, hv, h => by simp [orderly] at hv
  | .view name target, p, hv, h => by simp [orderly] at hv
  | .borrowed v, p, hv, h => by simp [orderly] at hv

theorem placeItems_places : ∀ (items : List Owned) (p : Placement),
    orderlyItems layout aside items = true → Laid aside p →
      Places aside p (placeItems layout items p).1 (placeItems layout items p).2 ∧
        ∀ (k : Nat) (id : NodeId), (placeItems layout items p).1[k]? = some id →
          LockAt (placeItems layout items p).2 id → lockFirstItem layout items k = true
  | [], p, _, h => by
      refine ⟨Places.refl h, fun k id hk => ?_⟩
      have hnone : ([] : List NodeId)[k]? = some id := hk
      simp at hnone
  | v :: rest, p, hv, h => by
      obtain ⟨hv, hrest⟩ := Bool.and_eq_true_iff.1 hv
      obtain ⟨hfirst, hlock⟩ := place_places v p hv h
      obtain ⟨hothers, hlocks⟩ := placeItems_places rest _ hrest hfirst.laid
      refine ⟨hfirst.trans hothers, fun k id hk hat => ?_⟩
      cases k with
      | zero =>
          -- what was placed first stays where it is
          obtain rfl : (place layout v p).1 = id := Option.some.inj hk
          exact hlock ((hothers.lockAt_iff hfirst.laid (hfirst.fresh _ (by simp)).1).1 hat)
      | succ k => exact hlocks k id hk hat

theorem placeEntries_places : ∀ (entries : List (Owned × Owned)) (p : Placement),
    orderlyEntries layout aside entries = true → Laid aside p →
      Places aside p ((placeEntries layout entries p).1.flatMap fun e => [e.key, e.value])
        (placeEntries layout entries p).2
  | [], p, _, h => Places.refl h
  | (k, v) :: rest, p, hv, h => by
      obtain ⟨hkv, hrest⟩ := Bool.and_eq_true_iff.1 hv
      obtain ⟨hk, hv⟩ := Bool.and_eq_true_iff.1 hkv
      have hkey := (place_places k p hk h).1
      have hvalue := (place_places v _ hv hkey.laid).1
      exact (hkey.trans hvalue).trans (placeEntries_places rest _ hrest hvalue.laid)

theorem placeFields_places : ∀ (fields : List (String × Visibility × Owned)) (p : Placement),
    orderlyFields layout aside fields = true → Laid aside p →
      Places aside p ((placeFields layout fields p).1.map Field.value)
        (placeFields layout fields p).2 ∧
        ∀ (k : Nat) (id : NodeId),
          ((placeFields layout fields p).1.map Field.value)[k]? = some id →
            LockAt (placeFields layout fields p).2 id → lockFirstField layout fields k = true
  | [], p, _, h => by
      refine ⟨Places.refl h, fun k id hk => ?_⟩
      have hnone : ([] : List NodeId)[k]? = some id := hk
      simp at hnone
  | (name, visibility, v) :: rest, p, hv, h => by
      obtain ⟨hv, hrest⟩ := Bool.and_eq_true_iff.1 hv
      obtain ⟨hfirst, hlock⟩ := place_places v p hv h
      obtain ⟨hothers, hlocks⟩ := placeFields_places rest _ hrest hfirst.laid
      refine ⟨hfirst.trans hothers, fun k id hk hat => ?_⟩
      cases k with
      | zero =>
          -- what was placed first stays where it is
          obtain rfl : (place layout v p).1 = id := Option.some.inj hk
          exact hlock ((hothers.lockAt_iff hfirst.laid (hfirst.fresh _ (by simp)).1).1 hat)
      | succ k => exact hlocks k id hk hat

end

/-- Placing values one after another, each with labels of its own. -/
theorem placeAll_places : ∀ (vs : List Owned) (p : Placement), Laid aside p →
    (∀ v ∈ vs, v.orderly layout aside = true) →
      Places aside p (placeAll layout vs p).1 (placeAll layout vs p).2
  | [], p, h, _ => Places.refl h
  | v :: rest, p, h, hvs => by
      have hforget : Laid aside { p with labels := [] } := ⟨h.addressed, by simp⟩
      have hv := (place_places v _ (hvs v (by simp)) hforget).1
      have hfirst : Places aside p [(placeAlone layout v p).1] (placeAlone layout v p).2 :=
        ⟨hv.laid, hv.old, hv.starts, hv.targets, hv.fresh⟩
      have hrest := placeAll_places rest _ hfirst.laid fun w hw => hvs w (by simp [hw])
      unfold placeAll at hrest ⊢
      rw [List.mapM_cons]
      exact hfirst.trans hrest

end Orderly

end Owned

end ValueLens
