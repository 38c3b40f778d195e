/-
**Nodes on top of nodes.**

Placing a value puts its parts into the table before the whole, so that everything a node consists
of or leads to has a smaller number.  The nodes that are there stay as they are.  A document has no
indirections, so that all its nodes lead nowhere.

Main definitions:

* `ValueLens.Graph.Stacked` — what a node consists of and leads to comes before it;
* `ValueLens.Graph.Extends` — a graph with more nodes;
* `ValueLens.Graph.Grows` — what placing a value without indirections does to a graph.

Main results:

* `ValueLens.Graph.Stacked.add` — a node may be put on top of the nodes it rests on;
* `ValueLens.Json.Value.place_grows` — **placing a document keeps a graph stacked**.
-/
import ValueLens.Json.Value
import ValueLens.Proofs.Termination

set_option relaxedAutoImplicit false
set_option autoImplicit false

namespace ValueLens

/-! ### Stacked graphs -/

/-- An indirection that leads to a node, or a lock. -/
def Shape.leadsOn : Shape → Bool
  | .pointer _ (some _) => true
  | .guarded _ _ _ => true
  | _ => false

/-- The nodes that a node consists of or leads to. -/
def Shape.rests : Shape → List NodeId
  | .pointer _ target => target.toList
  | .guarded _ content _ => content.toList
  | shape => shape.parts

theorem Shape.parts_subset_rests (shape : Shape) : shape.parts ⊆ shape.rests := by
  cases shape with
  | pointer a target => simp [parts]
  | guarded a content lock => simp [parts]
  | _ => exact List.Subset.refl _

/-- What leads nowhere rests on its parts. -/
theorem Shape.rests_eq_parts {shape : Shape} (h : shape.leadsOn = false) :
    shape.rests = shape.parts := by
  cases shape with
  | pointer a target =>
      cases target with
      | none => rfl
      | some target => simp [leadsOn] at h
  | guarded a content lock => simp [leadsOn] at h
  | _ => rfl

namespace Graph

/-- **What a node consists of and leads to comes before it.** -/
def Stacked (g : Graph) : Prop := ∀ id, ∀ child ∈ (g.shape id).rests, child < id

theorem stacked_empty : ({} : Graph).Stacked := by
  intro id child hchild
  have hshape : ({} : Graph).shape id = .invalid := shape_of_size_le (Nat.zero_le id)
  simp [hshape, Shape.rests, Shape.parts] at hchild

/-- Parts come before the whole. -/
theorem Stacked.lt_of_hasPart {g : Graph} (h : g.Stacked) {id child : NodeId}
    (hpart : g.HasPart id child) : child < id :=
  h id child (Shape.parts_subset_rests _ hpart)

/-- A graph with more nodes. -/
def Extends (g g' : Graph) : Prop := ∃ more, g'.nodes = g.nodes ++ more

theorem Extends.refl (g : Graph) : g.Extends g := ⟨#[], by simp⟩

theorem Extends.trans {g g' g'' : Graph} (h : g.Extends g') (h' : g'.Extends g'') :
    g.Extends g'' := by
  obtain ⟨more, hmore⟩ := h
  obtain ⟨more', hmore'⟩ := h'
  exact ⟨more ++ more', by rw [hmore', hmore, Array.append_assoc]⟩

theorem Extends.size_le {g g' : Graph} (h : g.Extends g') : g.size ≤ g'.size := by
  obtain ⟨more, hmore⟩ := h
  simp [size, hmore]

theorem Extends.node_eq {g g' : Graph} (h : g.Extends g') {id : NodeId} (hid : id < g.size) :
    g'.node id = g.node id := by
  obtain ⟨more, hmore⟩ := h
  simp only [node, Array.getD_eq_getD_getElem?, hmore]
  rw [Array.getElem?_append_left hid]

theorem Extends.shape_eq {g g' : Graph} (h : g.Extends g') {id : NodeId} (hid : id < g.size) :
    g'.shape id = g.shape id :=
  congrArg Node.shape (h.node_eq hid)

theorem add_extends (g : Graph) (n : Node) : g.Extends (g.add n).2 :=
  ⟨#[n], by simp [add]⟩

theorem add_size (g : Graph) (n : Node) : (g.add n).2.size = g.size + 1 := by
  simp [add, size]

theorem add_node (g : Graph) (n : Node) : (g.add n).2.node g.size = n := by
  simp [add, node, size, Array.getD_eq_getD_getElem?]

theorem add_shape (g : Graph) (n : Node) : (g.add n).2.shape g.size = n.shape :=
  congrArg Node.shape (g.add_node n)

/-- A node that was added stays. -/
theorem Extends.node_of_add {g g' : Graph} {n : Node} (h : (g.add n).2.Extends g') :
    g'.node g.size = n := by
  rw [h.node_eq (by rw [add_size]; exact Nat.lt_succ_self _), add_node]

/-- The nodes of a graph with one more node: the old ones, the new one, and none. -/
theorem add_cases (g : Graph) (n : Node) (id : NodeId) :
    (id < g.size ∧ (g.add n).2.shape id = g.shape id) ∨
      (id = g.size ∧ (g.add n).2.shape id = n.shape) ∨ (g.add n).2.shape id = .invalid := by
  rcases Nat.lt_trichotomy id g.size with hid | rfl | hid
  · exact Or.inl ⟨hid, (add_extends g n).shape_eq hid⟩
  · exact Or.inr (Or.inl ⟨rfl, g.add_shape n⟩)
  · exact Or.inr (Or.inr (shape_of_size_le (by rw [add_size]; omega)))

/-- A node that rests on the nodes of a stacked graph may be put on top. -/
theorem Stacked.add {g : Graph} (h : g.Stacked) {n : Node}
    (hrests : ∀ child ∈ n.shape.rests, child < g.size) : (g.add n).2.Stacked := by
  intro id child hchild
  rcases g.add_cases n id with ⟨-, hid⟩ | ⟨rfl, hid⟩ | hid
  · exact h id child (hid ▸ hchild)
  · exact hrests child (hid ▸ hchild)
  · simp [hid, Shape.rests, Shape.parts] at hchild

/-- **What placing a value without indirections does to a graph**: it stays stacked and keeps its
nodes, the nodes that are handed out belong to it, and the new ones lead nowhere. -/
structure Grows (g : Graph) (ids : List NodeId) (g' : Graph) : Prop where
  stacked : g'.Stacked
  old : g.Extends g'
  lt : ∀ id ∈ ids, g.size ≤ id ∧ id < g'.size
  plain : ∀ id, g.size ≤ id → (g'.shape id).leadsOn = false

namespace Grows

variable {g g' g'' : Graph} {ids ids' : List NodeId}

theorem refl (h : g.Stacked) : Grows g [] g := by
  refine ⟨h, Extends.refl g, by simp, fun id hid => ?_⟩
  rw [shape_of_size_le hid]
  rfl

theorem trans (h : Grows g ids g') (h' : Grows g' ids' g'') : Grows g (ids ++ ids') g'' := by
  have hsize := h.old.size_le
  refine ⟨h'.stacked, h.old.trans h'.old, ?_, ?_⟩
  · intro id hid
    rcases List.mem_append.1 hid with hid | hid
    · obtain ⟨hge, hlt⟩ := h.lt id hid
      exact ⟨hge, Nat.lt_of_lt_of_le hlt h'.old.size_le⟩
    · obtain ⟨hge, hlt⟩ := h'.lt id hid
      exact ⟨Nat.le_trans hsize hge, hlt⟩
  · intro id hid
    by_cases hnew : g'.size ≤ id
    · exact h'.plain id hnew
    · rw [h'.old.shape_eq (Nat.lt_of_not_le hnew)]
      exact h.plain id hid

/-- A whole on top of its parts. -/
theorem add_whole (h : Grows g ids g') {n : Node} (hlead : n.shape.leadsOn = false)
    (hparts : ∀ child ∈ n.shape.parts, child ∈ ids) : Grows g [g'.size] (g'.add n).2 := by
  have hrests : ∀ child ∈ n.shape.rests, child < g'.size := by
    rw [Shape.rests_eq_parts hlead]
    exact fun child hchild => (h.lt child (hparts child hchild)).2
  refine ⟨h.stacked.add hrests, h.old.trans (add_extends g' n), ?_, ?_⟩
  · intro id hid
    rw [List.mem_singleton.1 hid, add_size]
    exact ⟨h.old.size_le, Nat.lt_succ_self _⟩
  · intro id hid
    rcases g'.add_cases n id with ⟨-, hshape⟩ | ⟨rfl, hshape⟩ | hshape
    · rw [hshape]
      exact h.plain id hid
    · rw [hshape]
      exact hlead
    · rw [hshape]
      rfl

end Grows

end Graph

/-! ### Documents -/

namespace Json.Value

open ValueLens.Graph

mutual

/-- Placing a document. -/
theorem place_grows : ∀ (v : Value) (g : Graph), g.Stacked → Grows g [(v.place g).1] (v.place g).2
  | .null, _, h => (Grows.refl h).add_whole rfl (by simp [Shape.parts])
  | .bool _, _, h => (Grows.refl h).add_whole rfl (by simp [Shape.parts])
  | .number n, _, h => by
      refine (Grows.refl h).add_whole ?_ ?_
      · cases n with
        | _ => rfl
      · cases n with
        | _ => simp [Number.shape, Shape.parts]
  | .text _, _, h => (Grows.refl h).add_whole rfl (by simp [Shape.parts])
  | .array items, g, h =>
      (placeItems_grows items g h).add_whole rfl (by simp [Shape.parts, Sequence.ofItems])
  | .object members, g, h => (placeMembers_grows members g h).add_whole rfl (by simp [Shape.parts])

theorem placeItems_grows : ∀ (items : List Value) (g : Graph), g.Stacked →
    Grows g (placeItems items g).1 (placeItems items g).2
  | [], _, h => Grows.refl h
  | v :: rest, g, h => by
      have hv := place_grows v g h
      exact hv.trans (placeItems_grows rest _ hv.stacked)

theorem placeMembers_grows : ∀ (members : List (String × Value)) (g : Graph), g.Stacked →
    Grows g ((placeMembers members g).1.flatMap fun e => [e.key, e.value])
      (placeMembers members g).2
  | [], _, h => Grows.refl h
  | (name, v) :: rest, g, h => by
      have hname : Grows g [g.size] (g.add { shape := .text name, typeName := nameKind }).2 :=
        (Grows.refl h).add_whole rfl (by simp [Shape.parts])
      have hv := place_grows v _ hname.stacked
      exact (hname.trans hv).trans (placeMembers_grows rest _ hv.stacked)

end

end Json.Value

end ValueLens
