/-
**One tree in two graphs.**

A document that is placed in a graph after others has other numbers there than in a graph of its
own.  Nothing but the steps of the walk shows the numbers: two nodes below which the same tree hangs
are shown alike, whatever else the two graphs hold, and the entries of a map are put in the same
order.  In a graph whose wholes come after their parts a walk of such a tree ends, under every
configuration, so that the fuel of the two graphs may differ as well.

Main definitions:

* `ValueLens.Graph.SameTree` — the same tree at two nodes of two graphs.

Main results:

* `ValueLens.Graph.SameTree.walk_match` — **walks of the same tree are alike**;
* `ValueLens.Graph.SameTree.ends` — they come to an end;
* `ValueLens.Graph.SameTree.present_linked` — what is shown of them is the same.
-/
import ValueLens.Proofs.Completion
import ValueLens.Proofs.Stacking

set_option relaxedAutoImplicit false
set_option autoImplicit false

namespace ValueLens

open Render

/-- Every member of a list has a partner. -/
theorem exists_of_mem_forall₂ {α β : Type} {R : α → β → Prop} {xs : List α} {ys : List β}
    (hall : List.Forall₂ R xs ys) {x : α} (hx : x ∈ xs) : ∃ y, R x y := by
  induction hall with
  | nil => simp at hx
  | cons hhead _ ih =>
      rcases List.mem_cons.1 hx with rfl | hx
      · exact ⟨_, hhead⟩
      · exact ih hx

namespace Graph

/-! ### The same tree -/

mutual

/-- **The same tree at two nodes of two graphs**: a leaf, a holder, or the parts of a sequence or a
map one by one. -/
inductive SameTree (g h : Graph) : NodeId → NodeId → Prop
  | leaf {a b : NodeId} (hleaf : (g.shape a).isLeaf = true ∨ g.shape a = .holder none)
      (hnode : g.node a = h.node b) : SameTree g h a b
  | holder {a b x y : NodeId} {typeName : String}
      (hg : g.node a = { shape := .holder (some x), typeName := typeName })
      (hh : h.node b = { shape := .holder (some y), typeName := typeName })
      (hcontent : SameTree g h x y) : SameTree g h a b
  | slice {a b : NodeId} {xs ys : List NodeId} {typeName : String}
      (hg : g.node a = { shape := .slice (some (.ofItems xs)), typeName := typeName })
      (hh : h.node b = { shape := .slice (some (.ofItems ys)), typeName := typeName })
      (hitems : List.Forall₂ (SameTree g h) xs ys) : SameTree g h a b
  | map {a b : NodeId} {es fs : List Entry} {typeName : String}
      (hg : g.node a = { shape := .map (some es), typeName := typeName })
      (hh : h.node b = { shape := .map (some fs), typeName := typeName })
      (hentries : List.Forall₂ (SameEntry g h) es fs) : SameTree g h a b

/-- Entries with the same tree at their keys and at their values. -/
inductive SameEntry (g h : Graph) : Entry → Entry → Prop
  | intro {e f : Entry} (hkey : SameTree g h e.key f.key)
      (hvalue : SameTree g h e.value f.value) : SameEntry g h e f

end

theorem SameEntry.key {g h : Graph} {e f : Entry} (hef : g.SameEntry h e f) :
    g.SameTree h e.key f.key := by
  cases hef with
  | intro hkey _ => exact hkey

theorem SameEntry.value {g h : Graph} {e f : Entry} (hef : g.SameEntry h e f) :
    g.SameTree h e.value f.value := by
  cases hef with
  | intro _ hvalue => exact hvalue

/-- Parts come before the whole while locks are held. -/
theorem Stacked.holding {g : Graph} (hg : g.Stacked) (held : List Address) :
    (g.holding held).Stacked := by
  intro id child hchild
  have hrests : ((g.shape id).holding held).rests = (g.shape id).rests := by
    cases g.shape id with
    | _ => rfl
  rw [shape_holding, hrests] at hchild
  exact hg id child hchild

namespace SameTree

variable {g h : Graph} {a b : NodeId}

theorem typeName_eq (hab : g.SameTree h a b) : g.typeName a = h.typeName b := by
  cases hab with
  | leaf _ hnode => simp only [typeName, hnode]
  | holder hg hh _ => simp only [typeName, hg, hh]
  | slice hg hh _ => simp only [typeName, hg, hh]
  | map hg hh _ => simp only [typeName, hg, hh]

theorem capability_eq (hab : g.SameTree h a b) :
    (g.node a).capability = (h.node b).capability := by
  cases hab with
  | leaf _ hnode => rw [hnode]
  | holder hg hh _ => rw [hg, hh]
  | slice hg hh _ => rw [hg, hh]
  | map hg hh _ => rw [hg, hh]

/-- What is seen of a shape without its parts. -/
theorem shape_congr {α : Type} (f : Shape → α) (hab : g.SameTree h a b)
    (hholder : ∀ x y, f (.holder (some x)) = f (.holder (some y)))
    (hslice : ∀ p q, f (.slice (some p)) = f (.slice (some q)))
    (hmap : ∀ es fs, f (.map (some es)) = f (.map (some fs))) : f (g.shape a) = f (h.shape b) := by
  cases hab with
  | leaf _ hnode => simp only [shape, hnode]
  | holder hg hh _ => simpa only [shape, hg, hh] using hholder _ _
  | slice hg hh _ => simpa only [shape, hg, hh] using hslice _ _
  | map hg hh _ => simpa only [shape, hg, hh] using hmap _ _

theorem isHolder_eq (hab : g.SameTree h a b) : (g.shape a).isHolder = (h.shape b).isHolder :=
  hab.shape_congr Shape.isHolder (fun _ _ => rfl) (fun _ _ => rfl) fun _ _ => rfl

theorem toByte?_eq (hab : g.SameTree h a b) : (g.shape a).toByte? = (h.shape b).toByte? :=
  hab.shape_congr Shape.toByte? (fun _ _ => rfl) (fun _ _ => rfl) fun _ _ => rfl

theorem isSimple_eq (hab : g.SameTree h a b) :
    KeyOrder.isSimple (g.shape a) = KeyOrder.isSimple (h.shape b) :=
  hab.shape_congr KeyOrder.isSimple (fun _ _ => rfl) (fun _ _ => rfl) fun _ _ => rfl

/-- There are no arrays to be looked into. -/
theorem ofNode_eq (hab : g.SameTree h a b) (n m : Nat) :
    SortKey.ofNode g (n + 1) a = SortKey.ofNode h (m + 1) b := by
  cases hab with
  | leaf hleaf hnode =>
      have hshape : g.shape a = h.shape b := congrArg Node.shape hnode
      have hname : g.typeName a = h.typeName b := congrArg Node.typeName hnode
      simp only [SortKey.ofNode, ← hshape, ← hname]
      cases hs : g.shape a with
      | array q => simp [hs, Shape.isLeaf] at hleaf
      | _ => rfl
  | holder hg hh _ => simp only [SortKey.ofNode, shape, typeName, hg, hh]
  | slice hg hh _ => simp only [SortKey.ofNode, shape, typeName, hg, hh]
  | map hg hh _ => simp only [SortKey.ofNode, shape, typeName, hg, hh]

theorem isIndirection_eq_false (hab : g.SameTree h a b) (c : Config) :
    (g.shape a).isIndirection c = false := by
  cases hab with
  | leaf hleaf _ =>
      rcases hleaf with hleaf | hnone
      · exact Walk.isIndirection_of_leaf hleaf c
      · rw [hnone]
        rfl
  | holder hg _ _ => simp only [shape, hg, Shape.isIndirection]
  | slice hg _ _ => simp only [shape, hg, Shape.isIndirection]
  | map hg _ _ => simp only [shape, hg, Shape.isIndirection]

theorem lengthsOf_eq (hab : g.SameTree h a b) (c : Config) :
    Mode.lengthsOf c (g.shape a) = Mode.lengthsOf c (h.shape b) := by
  cases hab with
  | leaf _ hnode => simp only [shape, hnode]
  | holder hg hh _ => simp only [shape, hg, hh, Mode.lengthsOf]
  | slice hg hh hitems =>
      simp only [shape, hg, hh, Mode.lengthsOf, Sequence.ofItems, hitems.length_eq]
  | map hg hh hentries => simp only [shape, hg, hh, Mode.lengthsOf, hentries.length_eq]

/-- **The same tree has the same parts.** -/
theorem part (hab : g.SameTree h a b) {x : NodeId} (hx : g.HasPart a x) :
    ∃ y, g.SameTree h x y := by
  unfold HasPart at hx
  cases hab with
  | leaf hleaf _ =>
      rcases hleaf with hleaf | hnone
      · cases hs : g.shape a with
        | _ => simp [hs, Shape.isLeaf, Shape.parts] at hleaf hx
      · simp [hnone, Shape.parts] at hx
  | holder hg _ hcontent =>
      obtain rfl : x = _ := by simpa [shape, hg, Shape.parts] using hx
      exact ⟨_, hcontent⟩
  | slice hg _ hitems =>
      refine exists_of_mem_forall₂ hitems ?_
      simpa [shape, hg, Shape.parts, Sequence.ofItems] using hx
  | map hg _ hentries =>
      simp only [shape, hg, Shape.parts, List.mem_flatMap, List.mem_cons, List.not_mem_nil,
        or_false] at hx
      obtain ⟨e, he, hx⟩ := hx
      obtain ⟨f, hef⟩ := exists_of_mem_forall₂ hentries he
      rcases hx with rfl | rfl
      · exact ⟨_, hef.key⟩
      · exact ⟨_, hef.value⟩

/-- A tree has no locks, so that it is the same while locks are held. -/
theorem holding (held : List Address) (hab : g.SameTree h a b) :
    (g.holding held).SameTree (h.holding held) a b := by
  have hnode (g : Graph) {a : NodeId} {n : Node} (hn : g.node a = n)
      (hguard : ∀ x content lock, n.shape ≠ .guarded x content lock) :
      (g.holding held).node a = n := by
    rw [node_holding, shape, hn, Shape.holding_eq_self held _ hguard]
  refine @SameTree.rec g h (fun a b _ => (g.holding held).SameTree (h.holding held) a b)
    (fun e f _ => (g.holding held).SameEntry (h.holding held) e f)
    (fun xs ys _ => List.Forall₂ ((g.holding held).SameTree (h.holding held)) xs ys)
    (fun es fs _ => List.Forall₂ ((g.holding held).SameEntry (h.holding held)) es fs)
    ?_ ?_ ?_ ?_ ?_ ?_ ?_ ?_ ?_ a b hab
  · intro a b hleaf hab
    have hguard : ∀ x content lock, (h.node b).shape ≠ .guarded x content lock := by
      intro x content lock hs
      simp [shape, hab, hs, Shape.isLeaf] at hleaf
    have ha := hnode g hab hguard
    have hb := hnode h rfl hguard
    refine .leaf ?_ (ha.trans hb.symm)
    simpa only [shape, ha, hab] using hleaf
  · intro a b x y typeName hg hh _ hcontent
    exact .holder (hnode g hg (by simp)) (hnode h hh (by simp)) hcontent
  · intro a b xs ys typeName hg hh _ hitems
    exact .slice (hnode g hg (by simp)) (hnode h hh (by simp)) hitems
  · intro a b es fs typeName hg hh _ hentries
    exact .map (hnode g hg (by simp)) (hnode h hh (by simp)) hentries
  · exact fun _ _ hkey hvalue => .intro hkey hvalue
  · exact .nil
  · exact fun _ _ hhead hrest => .cons hhead hrest
  · exact .nil
  · exact fun _ _ hhead hrest => .cons hhead hrest

end SameTree

end Graph

/-! ### The order of entries -/

/-- Sorting keeps pairs together, if they compare alike. -/
theorem forall₂_mergeSort {α β : Type} {R : α → β → Prop} {le₁ : α → α → Bool}
    {le₂ : β → β → Bool} (hle : ∀ {a b a' b'}, R a b → R a' b' → le₁ a a' = le₂ b b')
    {xs : List α} {ys : List β} (hall : List.Forall₂ R xs ys) :
    List.Forall₂ R (xs.mergeSort le₁) (ys.mergeSort le₂) := by
  -- the pairs are sorted in one list, whose two halves are the sorted lists
  let le (p q : α × β) : Bool := le₁ p.1 q.1
  have hpair : ∀ p ∈ xs.zip ys, R p.1 p.2 := fun p hp => List.forall₂_zip hall hp
  have hfst : (xs.zip ys).map Prod.fst = xs :=
    List.map_fst_zip (Nat.le_of_eq hall.length_eq)
  have hsnd : (xs.zip ys).map Prod.snd = ys :=
    List.map_snd_zip (Nat.le_of_eq hall.length_eq.symm)
  have hxs : ((xs.zip ys).mergeSort le).map Prod.fst = xs.mergeSort le₁ := by
    have hmap := List.map_mergeSort (f := Prod.fst) (r := le) (s := le₁) (l := xs.zip ys)
      fun _ _ _ _ => rfl
    rw [hmap, hfst]
  have hys : ((xs.zip ys).mergeSort le).map Prod.snd = ys.mergeSort le₂ := by
    have hmap := List.map_mergeSort (f := Prod.snd) (r := le) (s := le₂) (l := xs.zip ys)
      fun p hp q hq => hle (hpair p hp) (hpair q hq)
    rw [hmap, hsnd]
  rw [← hxs, ← hys, List.forall₂_map_left_iff, List.forall₂_map_right_iff, List.forall₂_same]
  exact fun p hp => hpair p (List.mem_mergeSort.1 hp)

namespace KeyOrder

variable {g h : Graph} {es fs : List Entry}

/-- Entries with the same tree, beside keys that are the same. -/
def SameKeyed (g h : Graph) {κ : Type} (p q : κ × Entry) : Prop :=
  p.1 = q.1 ∧ g.SameEntry h p.2 q.2

theorem sortOn_same {κ : Type} (compare : κ → κ → Ordering) {ps qs : List (κ × Entry)}
    (hall : List.Forall₂ (SameKeyed g h) ps qs) :
    List.Forall₂ (g.SameEntry h) (sortOn compare ps) (sortOn compare qs) := by
  have hsorted : List.Forall₂ (SameKeyed g h) (ps.mergeSort fun a b => compare a.1 b.1 != .gt)
      (qs.mergeSort fun a b => compare a.1 b.1 != .gt) := by
    refine forall₂_mergeSort ?_ hall
    rintro _ _ _ _ ⟨hp, -⟩ ⟨hq, -⟩
    rw [hp, hq]
  unfold sortOn
  rw [List.forall₂_map_left_iff, List.forall₂_map_right_iff]
  exact hsorted.imp fun _ _ hpq => hpq.2

/-- **The same tree is described alike.** -/
theorem descriptions?_same (hall : List.Forall₂ (g.SameEntry h) es fs) :
    Likeness.output.Linked (Option.Rel (List.Forall₂ (SameKeyed g h))) (descriptions? g es)
      (descriptions? h fs) := by
  induction hall with
  | nil => exact .pure (.some .nil)
  | @cons e f es fs hef _ ih =>
      have hdescribe : (g.node e.key).describe = (h.node f.key).describe :=
        Node.describe_congr hef.key.typeName_eq hef.key.capability_eq
      simp only [descriptions?, hdescribe]
      refine (Likeness.Linked.of_refl (fun _ => rfl) _).bind ?_
      rintro answer _ rfl
      cases answer.text? with
      | none => exact .pure .none
      | some t =>
          refine ih.bind ?_
          rintro ps qs hpq
          cases hpq with
          | none => exact .pure .none
          | some hpq => exact .pure (.some (.cons ⟨rfl, hef⟩ hpq))

theorem echoes_same {echo₁ echo₂ : NodeId → Trace String}
    (hecho : ∀ {a b}, g.SameTree h a b → Likeness.output.Linked Eq (echo₁ a) (echo₂ b))
    (hall : List.Forall₂ (g.SameEntry h) es fs) :
    Likeness.output.Linked (List.Forall₂ (SameKeyed g h)) (echoes echo₁ es) (echoes echo₂ fs) := by
  induction hall with
  | nil => exact .pure .nil
  | @cons e f es fs hef _ ih =>
      refine (hecho hef.key).bind ?_
      rintro t _ rfl
      refine ih.bind fun ps qs hpq => ?_
      exact .pure (.cons ⟨rfl, hef⟩ hpq)

/-- **Entries with the same tree are put in the same order.** -/
theorem sort_same {s : Scene} (hg : s.graph = g) {echo₁ echo₂ : NodeId → Trace String}
    (hecho : ∀ {a b}, g.SameTree h a b → Likeness.output.Linked Eq (echo₁ a) (echo₂ b))
    (hookAllowed : Bool) (hall : List.Forall₂ (g.SameEntry h) es fs) :
    Likeness.output.Linked (List.Forall₂ (g.SameEntry h)) (sort s echo₁ hookAllowed es)
      (sort { s with graph := h } echo₂ hookAllowed fs) := by
  subst hg
  have hsimple : (es.all fun e => isSimple (s.graph.shape e.key)) =
      fs.all fun f => isSimple (h.shape f.key) := by
    induction hall with
    | nil => rfl
    | cons hef _ ih => simp only [List.all_cons, hef.key.isSimple_eq, ih]
  have hkeyed : List.Forall₂ (SameKeyed s.graph h)
      (es.map fun e => (SortKey.ofNode s.graph (s.graph.size + 1) e.key, e))
      (fs.map fun f => (SortKey.ofNode h (h.size + 1) f.key, f)) := by
    rw [List.forall₂_map_left_iff, List.forall₂_map_right_iff]
    exact hall.imp fun e f hef => ⟨hef.key.ofNode_eq _ _, hef⟩
  unfold sort
  rw [← hsimple]
  split
  · exact .pure (sortOn_same _ hkeyed)
  · rw [sortByText_eq, sortByText_eq]
    have hasked : Likeness.output.Linked (Option.Rel (List.Forall₂ (SameKeyed s.graph h)))
        (asked s.graph hookAllowed es) (asked h hookAllowed fs) := by
      cases hookAllowed with
      | true => exact descriptions?_same hall
      | false => exact .pure .none
    refine hasked.bind fun described₁ described₂ hdescribed => ?_
    cases hdescribed with
    | some hpq => exact .pure (sortOn_same _ hpq)
    | none =>
        simp only [settle]
        cases s.config.echoKeys with
        | false => exact .pure hall
        | true =>
            refine (echoes_same hecho hall).bind fun ps qs hpq => ?_
            exact .pure (sortOn_same _ hpq)

end KeyOrder

/-! ### Walks -/

namespace Graph.SameTree

open Walk

variable {s : Scene} {h : Graph} {a b : NodeId} {mode : Mode} {visit₁ visit₂ : Visit}
  {texts₁ texts₂ : Texts}

/-- Computations with the same output from every state, which they change alike. -/
abbrev Match {α β : Type} (R : α → β → Prop) (m₁ : Render α) (m₂ : Render β) : Prop :=
  Likeness.output.Ties Eq Eq R m₁ m₂

/-- Computations that match are coupled, wherever they stand. -/
def matching : Coupling Unit where
  Rel _ _ R m₁ m₂ := Match R m₁ m₂
  bind := .bind
  done := .pure rfl
  within _ _ := ()
  secretly h := by
    refine .get_bind ?_
    rintro st _ rfl
    refine .seq (.modify fun σ _ hσ => by rw [hσ]) (.seq h (.modify fun σ _ hσ => ?_))
    rw [hσ]

theorem matching_calm : matching.Calm := ⟨fun _ _ => .refl _⟩

theorem byteView?_eq {xs ys : List NodeId} (hall : List.Forall₂ (s.graph.SameTree h) xs ys) :
    byteView? s (.ofItems xs) = byteView? { s with graph := h } (.ofItems ys) := by
  have hstart : startsWithByte s (.ofItems xs) =
      startsWithByte { s with graph := h } (.ofItems ys) := by
    cases hall with
    | nil => rfl
    | cons hfirst _ =>
        simp only [startsWithByte, Sequence.ofItems, hfirst.typeName_eq]
        cases hfirst with
        | leaf _ hnode => simp only [Graph.shape, hnode]
        | holder hg hh _ => simp only [Graph.shape, hg, hh]
        | slice hg hh _ => simp only [Graph.shape, hg, hh]
        | map hg hh _ => simp only [Graph.shape, hg, hh]
  have hbytes : itemBytes? s.graph xs = itemBytes? h ys := by
    clear hstart
    induction hall with
    | nil => rfl
    | cons hxy _ ih =>
        simp only [itemBytes?, List.mapM_cons] at ih ⊢
        rw [hxy.toByte?_eq, ih]
  simp only [byteView?, hstart]
  split
  · cases s.hatchOpen with
    | _ => exact hbytes
  · rfl

section Level

variable {p q : Side} (hscene : q.scene = { p.scene with graph := h }) (hmode : p.mode = q.mode)
  (hvisit : ∀ {a b}, p.scene.graph.SameTree h a b → matching.Couples () (p.below a) (q.below b))
  (htexts : ∀ held {a b}, p.scene.graph.SameTree h a b →
    Likeness.output.Linked Eq (p.texts held a) (q.texts held b))

include hscene

include hmode

theorem front_match (hab : p.scene.graph.SameTree h a b) :
    matching.Rel () () Eq (p.front a) (q.front b) := by
  have hname : (p.scene.graph.node a).typeName = (h.node b).typeName := hab.typeName_eq
  have hlengths : Mode.lengthsOf p.scene.config (p.scene.graph.node a).shape =
      Mode.lengthsOf p.scene.config (h.node b).shape := hab.lengthsOf_eq p.scene.config
  have hholder : (p.scene.graph.node a).shape.isHolder = (h.node b).shape.isHolder :=
    hab.isHolder_eq
  have hconsult : (p.scene.graph.node a).consult p.scene.config =
      (h.node b).consult p.scene.config := Node.consult_congr hname hab.capability_eq rfl
  refine matching_calm.front (a := p) (b := q) hmode ?_ ?_ fun _ => .step _ _
  · rw [hscene]
    cases q.mode with
    | dump => simp only [Mode.header, hname, hlengths]
    | compact types details => simp only [Mode.header, hname]
  · rw [hscene]
    simp only [ask, hholder, hconsult]
    rfl

theorem nest_match (bracket : Mode.Bracket) {inside₁ inside₂ : Render Unit}
    (hinside : matching.Couples () inside₁ inside₂) :
    matching.Couples () (p.nest a bracket inside₁) (q.nest b bracket inside₂) := by
  have hdeeper : matching.Couples () (Mode.deeper inside₁) (Mode.deeper inside₂) := by
    refine .seq (.modify fun st _ hst => by rw [hst]) (.seq hinside (.modify fun st _ hst => ?_))
    rw [hst]
  unfold Side.nest
  rw [hmode, hscene]
  exact matching_calm.nest (i := ()) rfl rfl (.step _ _) (.step _ _) hdeeper q.mode

include hvisit

theorem nested_match (hab : p.scene.graph.SameTree h a b) : matching.Nested p q () a b := by
  have hholder : (p.scene.graph.shape a).isHolder = (q.scene.graph.shape b).isHolder := by
    rw [hscene]
    exact hab.isHolder_eq
  exact matching_calm.nested hmode hholder (hvisit hab)

include htexts

/-- Entries with the same tree come in the same order. -/
theorem arranged_match {es fs : List Entry}
    (hall : List.Forall₂ (p.scene.graph.SameEntry h) es fs) :
    matching.Rel () () (List.Forall₂ (matching.Entered p q ())) (p.arranged es)
      (q.arranged fs) := by
  have hentered {es fs : List Entry} (hall : List.Forall₂ (p.scene.graph.SameEntry h) es fs) :
      List.Forall₂ (matching.Entered p q ()) es fs :=
    hall.imp fun _ _ hef =>
      ⟨nested_match hscene hmode hvisit hef.key, nested_match hscene hmode hvisit hef.value⟩
  unfold Side.arranged arranged
  rw [hscene]
  cases p.scene.config.sortKeys with
  | false => exact .pure (hentered hall)
  | true =>
      refine .get_bind ?_
      rintro st _ rfl
      have hsorted := KeyOrder.sort_same rfl (htexts st.held) (st.hookAllowed p.scene) hall
      exact .lift (hsorted.imp fun _ _ => hentered)

/-- **The rule of a level for the same tree.** -/
theorem level_match (hab : p.scene.graph.SameTree h a b) :
    matching.Couples () (p.level a) (q.level b) := by
  have hindent : p.scene.config.indent = q.scene.config.indent := by rw [hscene]
  refine Coupling.level_couples (matching_calm.fits hmode hindent) (front_match hscene hmode hab) ?_
  unfold form
  cases hab with
  | leaf hleaf hnode =>
      have hshape : q.scene.graph.shape b = p.scene.graph.shape a := by
        rw [hscene]
        exact congrArg Node.shape hnode.symm
      rw [hshape]
      rcases hleaf with hleaf | hnone
      · obtain ⟨text, htext⟩ := exists_formOf_of_leaf hleaf
        rw [htext, htext]
        exact .leaf (hmode ▸ .write _)
      · rw [hnone]
        exact .leaf (.write _)
  | holder hg hh hcontent =>
      simp only [shape, hg, hh, formOf, hscene]
      exact .held (hvisit hcontent)
  | slice hg hh hitems =>
      simp only [shape, hg, hh, formOf, hscene]
      refine .sequence () (hitems.imp fun _ _ => nested_match hscene hmode hvisit) fun hinside => ?_
      refine nest_match hscene hmode .sequence (matching_calm.elements hmode hindent ?_ hinside)
      rw [hscene]
      exact byteView?_eq hitems
  | map hg hh hentries =>
      simp only [shape, hg, hh, formOf, hscene]
      exact .map () (arranged_match hscene hmode hvisit htexts hentries)
        (nest_match hscene hmode .map)

end Level

/-- **Walks of the same tree are alike.** -/
theorem walk_match (n : Nat) (hab : s.graph.SameTree h a b) :
    Match Eq (walk s n mode a) (walk { s with graph := h } n mode b) := by
  induction n generalizing s h mode a b with
  | zero => exact .stalled
  | succ n ih =>
      refine level_match (p := ⟨s, mode, keyTexts s n, walk s n⟩)
        (q := ⟨{ s with graph := h }, mode, keyTexts { s with graph := h } n, walk _ n⟩) rfl rfl
        (fun hxy => ih hxy) (fun held x y hxy => ?_) hab
      have hwalk : Match Eq (walk (s.holding held) n (.compact true false) x)
          (walk ({ s with graph := h }.holding held) n (.compact true false) y) :=
        ih (s := s.holding held) (hxy.holding held)
      exact Likeness.output_telling.captured_linked (hwalk.fromStart rfl)

/-! ### The end of a walk -/

/-- **A walk of a tree ends**, whatever the configuration: parts have smaller numbers than the
whole, and the keys whose texts are asked for are parts. -/
theorem ends (hg : s.graph.Stacked) {n : Nat} (hab : s.graph.SameTree h a b) (hn : a < n)
    (f : Frame) : Ends s mode n a (f.state false) := by
  induction n generalizing s h mode a b f with
  | zero => exact absurd hn (Nat.not_lt_zero a)
  | succ n ih =>
      have hlt {x : NodeId} (hx : s.graph.HasPart a x) : x < n :=
        Nat.lt_of_lt_of_le (hg.lt_of_hasPart hx) (Nat.le_of_lt_succ hn)
      refine ends_succ_iff.2 ⟨?_, ?_⟩
      · rintro child f' ⟨-, hbelow⟩
        rcases hbelow.part_or_chain with ⟨hx, -⟩ | ⟨hchain, -⟩
        · obtain ⟨y, hxy⟩ := hab.part hx
          exact ih hg hxy (hlt hx) f'
        · simp [hab.isIndirection_eq_false] at hchain
      · rintro _ ⟨es, hs, -, -, -, e, he, rfl⟩
        have hx : s.graph.HasPart a e.key := by
          simp only [HasPart, hs, Shape.parts, List.mem_flatMap]
          exact ⟨e, he, by simp⟩
        obtain ⟨y, hxy⟩ := hab.part hx
        exact ih (s := s.holding f.held) (hg.holding f.held) (hxy.holding f.held) (hlt hx) .start

/-- A tree is presented as on any larger amount of fuel. -/
theorem present_eq (hg : s.graph.Stacked) (hab : s.graph.SameTree h a b) (ha : a < s.graph.size)
    {n : Nat} (hn : s.fuel ≤ n) : s.present mode a = fromStart (walk s n mode a) := by
  have hfuel : a < s.fuel := Nat.lt_of_lt_of_le ha s.size_le_fuel
  exact fromStart_congr ((hab.ends hg hfuel .start).walk_eq hn)

/-- **The same tree is presented alike**, and to its end. -/
theorem present_linked (hg : s.graph.Stacked) (hh : h.Stacked) (hab : s.graph.SameTree h a b)
    (hba : h.SameTree s.graph b a) (ha : a < s.graph.size) (hb : b < h.size) :
    Likeness.output.Linked Eq (s.present mode a) ({ s with graph := h }.present mode b) ∧
      (s.present mode a).result.isSome = true := by
  let t : Scene := { s with graph := h }
  have hs : s.present mode a = fromStart (walk s (max s.fuel t.fuel) mode a) :=
    hab.present_eq hg ha (Nat.le_max_left _ _)
  have ht : t.present mode b = fromStart (walk t (max s.fuel t.fuel) mode b) :=
    hba.present_eq (s := t) hh hb (Nat.le_max_right _ _)
  refine ⟨?_, ?_⟩
  · rw [hs, ht]
    exact (walk_match _ hab).fromStart rfl
  · have hend : Ends s mode s.fuel a {} :=
      hab.ends hg (Nat.lt_of_lt_of_le ha s.size_le_fuel) .start
    simpa [Scene.present, Ends] using hend

end Graph.SameTree

end ValueLens
