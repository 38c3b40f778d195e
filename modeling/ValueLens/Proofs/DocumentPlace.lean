/-
**Documents beside documents.**

Several documents are placed in one graph, one after the other.  Each of them is there as it would
be in a graph of its own: the same tree hangs below its root, whatever was placed before it and
comes after it.  So it is shown as it would be shown alone.

That the same is placed in any two graphs goes through sequences of actions and through putting a
whole on top of its parts, and the documents of both formats are made of these two.

Main definitions:

* `ValueLens.Graph.Places` — actions that place the same wherever they are carried out;
* `ValueLens.Document.PlacedAt` — a document that was placed in a graph.

Main results:

* `ValueLens.Json.Value.place_places`, `ValueLens.Yaml.Value.place_places` — **a document is the
  same tree wherever it is placed**;
* `ValueLens.Document.PlacedAt.present_linked` — it is presented alike there, and to its end.
-/
import ValueLens.Document
import ValueLens.Proofs.Copies

set_option relaxedAutoImplicit false
set_option autoImplicit false

namespace ValueLens

namespace Graph

/-! ### Placing the same -/

/-- **An action that places the same wherever it is carried out.**  The graph stays stacked and
keeps its nodes, and the nodes that are handed out belong to it; what is handed out in two graphs is
related by `R`, however the graphs grow afterwards. -/
structure Places {α : Type} (ids : α → List NodeId) (R : Graph → Graph → α → α → Prop)
    (m : StateM Graph α) : Prop where
  grows : ∀ {g : Graph}, g.Stacked → Grows g (ids (m g).1) (m g).2
  same : ∀ {g g' h h' : Graph}, g.Stacked → h.Stacked → (m g).2.Extends g' →
    (m h).2.Extends h' → R g' h' (m g).1 (m h).1

namespace Places

variable {α β γ : Type} {ids₁ : α → List NodeId} {ids₂ : β → List NodeId}
  {R₁ : Graph → Graph → α → α → Prop} {R₂ : Graph → Graph → β → β → Prop}

/-- A value without parts. -/
theorem leaf {n : Node} (hleaf : n.shape.isLeaf = true ∨ n.shape = .holder none) :
    Places (fun id => [id]) SameTree (Graph.place n) where
  grows := by
    intro g hg
    have hplain : n.shape.leadsOn = false ∧ n.shape.parts = [] := by
      rcases hleaf with hleaf | hnone
      · cases hs : n.shape with
        | _ => simp [hs, Shape.isLeaf, Shape.leadsOn, Shape.parts] at hleaf ⊢
      · rw [hnone]
        exact ⟨rfl, rfl⟩
    exact (Grows.refl hg).add_whole hplain.1 (by simp [hplain.2])
  same := by
    intro g g' h h' _ _ hg' hh'
    refine .leaf ?_ (hg'.node_of_add.trans hh'.node_of_add.symm)
    change (g'.node g.size).shape.isLeaf = true ∨ (g'.node g.size).shape = .holder none
    rwa [hg'.node_of_add]

/-- **A whole on top of its parts.** -/
theorem whole {m : StateM Graph α} (hm : Places ids₁ R₁ m) (node : α → Node)
    (hlead : ∀ a, (node a).shape.leadsOn = false)
    (hparts : ∀ a, ∀ child ∈ (node a).shape.parts, child ∈ ids₁ a)
    (hsame : ∀ {g h : Graph} {x y : NodeId} {a b : α}, g.node x = node a → h.node y = node b →
      R₁ g h a b → g.SameTree h x y) :
    Places (fun id => [id]) SameTree (m >>= fun a => Graph.place (node a)) where
  grows hg := (hm.grows hg).add_whole (hlead _) (hparts _)
  same hg hh hg' hh' :=
    hsame hg'.node_of_add hh'.node_of_add
      (hm.same hg hh ((add_extends _ _).trans hg') ((add_extends _ _).trans hh'))

/-- **One action after the other.** -/
theorem both {m : StateM Graph α} {k : StateM Graph β} (hm : Places ids₁ R₁ m)
    (hk : Places ids₂ R₂ k) (f : α → β → γ) {ids : γ → List NodeId}
    {R : Graph → Graph → γ → γ → Prop} (hids : ∀ a b, ids (f a b) = ids₁ a ++ ids₂ b)
    (hR : ∀ {g h a a' b b'}, R₁ g h a a' → R₂ g h b b' → R g h (f a b) (f a' b')) :
    Places ids R (m >>= fun a => k >>= fun b => pure (f a b)) where
  grows := by
    intro g hg
    have hfirst := hm.grows hg
    have hboth := hfirst.trans (hk.grows hfirst.stacked)
    rw [← hids] at hboth
    exact hboth
  same := by
    intro g g' h h' hg hh hg' hh'
    have hfirst := hm.grows hg
    have hfirst' := hm.grows hh
    refine hR (hm.same hg hh ?_ ?_) (hk.same hfirst.stacked hfirst'.stacked hg' hh')
    · exact (hk.grows hfirst.stacked).old.trans hg'
    · exact (hk.grows hfirst'.stacked).old.trans hh'

/-- Nothing is placed. -/
protected theorem pure {a : α} (hids : ids₁ a = []) (hR : ∀ {g h}, R₁ g h a a) :
    Places ids₁ R₁ (pure a) where
  grows := by
    intro g hg
    have hnone := Grows.refl hg
    rw [← hids] at hnone
    exact hnone
  same _ _ _ _ := hR

/-- An entry and the entries after it. -/
theorem entries {key value : StateM Graph NodeId} {rest : StateM Graph (List Entry)}
    (hkey : Places (fun id => [id]) SameTree key) (hvalue : Places (fun id => [id]) SameTree value)
    (hrest : Places (List.flatMap fun e => [e.key, e.value])
      (fun g h => List.Forall₂ (g.SameEntry h)) rest) :
    Places (List.flatMap fun e => [e.key, e.value]) (fun g h => List.Forall₂ (g.SameEntry h))
      (do
        let k ← key
        let v ← value
        let es ← rest
        pure (⟨k, v⟩ :: es)) := by
  have hvalues : Places
      (fun p : NodeId × List Entry => p.1 :: p.2.flatMap fun e => [e.key, e.value])
      (fun g h p q => g.SameTree h p.1 q.1 ∧ List.Forall₂ (g.SameEntry h) p.2 q.2)
      (value >>= fun v => rest >>= fun es => pure (v, es)) :=
    hvalue.both hrest (fun v es => (v, es)) (fun _ _ => rfl) fun hv hes => ⟨hv, hes⟩
  have hentries : Places (List.flatMap fun e => [e.key, e.value])
      (fun g h => List.Forall₂ (g.SameEntry h))
      (key >>= fun k => (value >>= fun v => rest >>= fun es => pure (v, es)) >>= fun p =>
        pure (⟨k, p.1⟩ :: p.2)) :=
    hkey.both hvalues _ (fun _ _ => rfl) fun hk hp => .cons (.intro hk hp.1) hp.2
  exact hentries

end Places

end Graph

open ValueLens.Graph

theorem Number.isLeaf_shape (n : Number) : n.shape.isLeaf = true := by
  cases n with
  | _ => rfl

/-! ### Documents of both formats -/

namespace Json.Value

mutual

/-- **A document is the same tree wherever it is placed.** -/
theorem place_places : ∀ v : Value, Places (fun id => [id]) SameTree v.place
  | .null => .leaf (Or.inr rfl)
  | .bool _ => .leaf (Or.inl rfl)
  | .number n => .leaf (Or.inl n.isLeaf_shape)
  | .text _ => .leaf (Or.inl rfl)
  | .array items => (placeItems_places items).whole _ (fun _ => rfl) (fun _ _ h => h) .slice
  | .object members => (placeMembers_places members).whole _ (fun _ => rfl) (fun _ _ h => h) .map

theorem placeItems_places : ∀ items : List Value,
    Places (fun ids => ids) (fun g h => List.Forall₂ (g.SameTree h)) (placeItems items)
  | [] => .pure rfl .nil
  | v :: rest => (place_places v).both (placeItems_places rest) _ (fun _ _ => rfl) .cons

theorem placeMembers_places : ∀ members : List (String × Value),
    Places (List.flatMap fun e => [e.key, e.value]) (fun g h => List.Forall₂ (g.SameEntry h))
      (placeMembers members)
  | [] => .pure rfl .nil
  | (_, v) :: rest => .entries (.leaf (Or.inl rfl)) (place_places v) (placeMembers_places rest)

end

end Json.Value

namespace Yaml.Value

mutual

/-- **A value is the same tree wherever it is placed.** -/
theorem place_places : ∀ v : Value, Places (fun id => [id]) SameTree v.place
  | .null => .leaf (Or.inr rfl)
  | .bool _ => .leaf (Or.inl rfl)
  | .number n => .leaf (Or.inl n.isLeaf_shape)
  | .text _ => .leaf (Or.inl rfl)
  | .sequence items => (placeItems_places items).whole _ (fun _ => rfl) (fun _ _ h => h) .slice
  | .mapping entries => (placeEntries_places entries).whole _ (fun _ => rfl) (fun _ _ h => h) .map
  | .tagged _ v => (place_places v).whole _ (fun _ => rfl) (fun _ _ h => h) .holder

theorem placeItems_places : ∀ items : List Value,
    Places (fun ids => ids) (fun g h => List.Forall₂ (g.SameTree h)) (placeItems items)
  | [] => .pure rfl .nil
  | v :: rest => (place_places v).both (placeItems_places rest) _ (fun _ _ => rfl) .cons

theorem placeEntries_places : ∀ entries : List (Value × Value),
    Places (List.flatMap fun e => [e.key, e.value]) (fun g h => List.Forall₂ (g.SameEntry h))
      (placeEntries entries)
  | [] => .pure rfl .nil
  | (k, v) :: rest => .entries (place_places k) (place_places v) (placeEntries_places rest)

end

end Yaml.Value

namespace Document

theorem place_places : ∀ d : Document, Places (fun id => [id]) SameTree d.place
  | .json v => v.place_places
  | .yaml v => v.place_places

/-! ### Documents in graphs -/

/-- A document that was placed in a graph, which may have grown since. -/
structure PlacedAt (d : Document) (g : Graph) (id : NodeId) : Prop where
  stacked : g.Stacked
  placed : ∃ old : Graph, old.Stacked ∧ (d.place old).1 = id ∧ (d.place old).2.Extends g

theorem PlacedAt.lt_size {d : Document} {g : Graph} {id : NodeId} (h : d.PlacedAt g id) :
    id < g.size := by
  obtain ⟨-, old, hold, rfl, hg⟩ := h
  exact Nat.lt_of_lt_of_le ((d.place_places.grows hold).lt _ (by simp)).2 hg.size_le

theorem PlacedAt.same {d : Document} {g h : Graph} {a b : NodeId} (ha : d.PlacedAt g a)
    (hb : d.PlacedAt h b) : g.SameTree h a b := by
  obtain ⟨-, old, hold, rfl, hg⟩ := ha
  obtain ⟨-, old', hold', rfl, hh⟩ := hb
  exact d.place_places.same hold hold' hg hh

/-- **A document is presented alike wherever it was placed**, and to its end. -/
theorem PlacedAt.present_linked {d : Document} {s : Scene} {h : Graph} {a b : NodeId}
    (ha : d.PlacedAt s.graph a) (hb : d.PlacedAt h b) (mode : Mode) :
    Likeness.output.Linked Eq (s.present mode a) ({ s with graph := h }.present mode b) ∧
      (s.present mode a).result.isSome = true :=
  (ha.same hb).present_linked ha.stacked hb.stacked (hb.same ha) ha.lt_size hb.lt_size

/-- A document that was just placed. -/
theorem placedAt_place (d : Document) {g : Graph} (hg : g.Stacked) :
    d.PlacedAt (d.place g).2 (d.place g).1 :=
  ⟨(d.place_places.grows hg).stacked, g, hg, rfl, .refl _⟩

/-- **Documents that are placed one after the other.** -/
theorem placedAt_mapM (ds : List Document) {g : Graph} (hg : g.Stacked) :
    Grows g ((ds.mapM place).run g).1 ((ds.mapM place).run g).2 ∧
      List.Forall₂ (fun d id => d.PlacedAt ((ds.mapM place).run g).2 id) ds
        ((ds.mapM place).run g).1 := by
  induction ds generalizing g with
  | nil => exact ⟨.refl hg, .nil⟩
  | cons d ds ih =>
      have hgrows := d.place_places.grows hg
      obtain ⟨hrest, hall⟩ := ih hgrows.stacked
      rw [List.mapM_cons]
      exact ⟨hgrows.trans hrest, .cons ⟨hrest.stacked, g, hg, rfl, hrest.old⟩ hall⟩

end Document

end ValueLens
