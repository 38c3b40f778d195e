/-
**The order in which the entries of a map are presented.**

A map hands out its entries in some order that means nothing.  Two scenes that differ in that order
only look alike as far as the map itself: the way takes nothing else from a map than its entries.
So what is shown depends on the order in which entries are presented only through the order in which
they are shown.

That order is canonical if whatever decides it tells the keys apart.  Where the compact texts of the
keys decide, different texts are enough.  But these texts are written where the map is met, and a
lock that is held there is closed to them: what tells two keys apart at the root of a render may be
out of reach deeper inside.  So the texts have to differ under the locks that are held wherever a
render comes to the map.  And keys that compare directly are not asked for their texts, and an array
compares directly whatever its elements are.  Elements without an order of their own are compared by
kind and type name alone; so arrays of different contents may compare equal, and then they are shown
in the order in which they are presented.

Main definitions:

* `ValueLens.Scene.Rearranged` — scenes that differ in the order of entries only;
* `ValueLens.Scene.arranged` — a scene with the entries of one map in another order;
* `ValueLens.KeyOrder.Decided` — whether something tells the keys of a map apart;
* `ValueLens.Walk.Includes`, `ValueLens.Walk.ComesHolding` — the walks that a render is made of, and
  the locks that are held when it comes to a value.

Main results:

* `ValueLens.Scene.Rearranged.walk_keeps` — **scenes that differ in the order of entries are shown
  alike** where the order is decided;
* `ValueLens.Scene.echoed_order_canonical_iff` — when echoed keys make the order of a map canonical.
-/
import ValueLens.Proofs.EntryOrder

set_option relaxedAutoImplicit false
set_option autoImplicit false

namespace ValueLens

open Render

/-! ### Likenesses as congruences -/

/-- Traces that are alike, with the same results. -/
def Likeness.congruence (L : Likeness) : Trace.Congruence where
  Rel := L.Linked Eq
  bind h hk := by
    refine (h.knowing fun _ ha => ha).bind ?_
    rintro a _ ⟨rfl, ha⟩
    exact hk a ha
  refl _ _ := .of_refl (fun _ => rfl) _

/-- Renders that are congruent from the initial state. -/
theorem Likeness.fromStart_linked {L : Likeness} {α : Type} {m₁ m₂ : Render α}
    (h : L.congruence.Keeps .start m₁ m₂) : L.Linked Eq (fromStart m₁) (fromStart m₂) := by
  obtain ⟨hlinked, -⟩ := h {} rfl
  have hstates : L.Linked Eq (m₁ {}) (m₂ {}) := hlinked
  refine hstates.bind ?_
  rintro ⟨a, σ⟩ _ rfl
  exact .pure rfl

/-! ### Scenes that differ in the order of entries -/

/-- **Nodes alike up to the order of the entries of a map.** -/
inductive Node.Rearranges : Node → Node → Prop
  | same (n : Node) : Rearranges n n
  | map {n : Node} {es es' : List Entry} (h : es'.Perm es) (hn : n.shape = .map (some es)) :
      Rearranges n { n with shape := .map (some es') }

namespace Node.Rearranges

variable {n n' : Node} (h : n.Rearranges n')

include h

/-- What is blind to the entries of maps does not see a difference. -/
theorem congr {α : Type} (read : Shape → α)
    (hread : ∀ es es', read (.map (some es')) = read (.map (some es))) :
    read n'.shape = read n.shape := by
  cases h with
  | same => rfl
  | map _ hn =>
      rw [hn]
      exact hread _ _

theorem typeName_eq : n'.typeName = n.typeName := by
  cases h with
  | _ => rfl

theorem capability_eq : n'.capability = n.capability := by
  cases h with
  | _ => rfl

theorem lengthsOf_eq (c : Config) : Mode.lengthsOf c n'.shape = Mode.lengthsOf c n.shape := by
  cases h with
  | same => rfl
  | map hperm hn => simp only [hn, Mode.lengthsOf, hperm.length_eq]

end Node.Rearranges

namespace Scene

/-- **Scenes that differ in the order of entries only.** -/
structure Rearranged (s s' : Scene) : Prop where
  config_eq : s'.config = s.config
  hatch_eq : s'.hatchOpen = s.hatchOpen
  size_eq : s'.graph.size = s.graph.size
  rearranges : ∀ id, (s.graph.node id).Rearranges (s'.graph.node id)

namespace Rearranged

variable {s s' : Scene} (h : s.Rearranged s')

include h

/-! #### What a walk reads besides the entries of maps -/

theorem shape_cases (id : NodeId) :
    s'.graph.shape id = s.graph.shape id ∨ ∃ es es', es'.Perm es ∧
      s.graph.shape id = .map (some es) ∧ s'.graph.shape id = .map (some es') := by
  have hnode := h.rearranges id
  simp only [Graph.shape]
  generalize s.graph.node id = node at hnode
  generalize s'.graph.node id = node' at hnode
  cases hnode with
  | same => exact Or.inl rfl
  | map hperm hn => exact Or.inr ⟨_, _, hperm, hn, rfl⟩

theorem typeName_eq (id : NodeId) : s'.graph.typeName id = s.graph.typeName id :=
  (h.rearranges id).typeName_eq

theorem behind?_eq (target : NodeId) :
    Chain.behind? s'.graph target = Chain.behind? s.graph target := by
  unfold Chain.behind?
  obtain hshape | ⟨es, es', -, hs, hs'⟩ := h.shape_cases target
  · rw [hshape]
  · rw [hs, hs']

theorem chain_eq (n : Nat) (chain : Chain) (id : NodeId) :
    Chain.walk s' n chain id = Chain.walk s n chain id := by
  induction n generalizing chain id with
  | zero => rfl
  | succ n ih =>
      have hnode := h.rearranges id
      unfold Chain.walk
      simp only [h.behind?_eq, h.typeName_eq, h.config_eq, ih]
      generalize s.graph.node id = node at hnode
      generalize s'.graph.node id = node' at hnode
      cases hnode with
      | same => rfl
      | map _ hn => simp only [hn]

theorem chainHeader_eq (mode : Mode) (chain : Chain) (link : Link) :
    mode.chainHeader s' chain link = mode.chainHeader s chain link := by
  have htype : Mode.chainType s'.graph chain link = Mode.chainType s.graph chain link := by
    cases link with
    | value id => simp only [Mode.chainType, h.typeName_eq]
    | _ => rfl
  cases mode with
  | _ => simp only [Mode.chainHeader, htype, h.config_eq]

theorem byteView?_eq (q : Sequence) : Walk.byteView? s' q = Walk.byteView? s q := by
  have hbytes : Walk.itemBytes? s'.graph q.items = Walk.itemBytes? s.graph q.items := by
    have hbyte (id : NodeId) : (s'.graph.shape id).toByte? = (s.graph.shape id).toByte? :=
      (h.rearranges id).congr Shape.toByte? fun _ _ => rfl
    simp only [Walk.itemBytes?, hbyte]
  have hstarts : Walk.startsWithByte s' q = Walk.startsWithByte s q := by
    unfold Walk.startsWithByte
    cases q.items with
    | nil => rfl
    | cons first rest =>
        simp only [h.typeName_eq, h.config_eq]
        obtain hshape | ⟨es, es', -, hs, hs'⟩ := h.shape_cases first
        · rw [hshape]
        · rw [hs, hs']
  simp only [Walk.byteView?, hbytes, hstarts, h.hatch_eq]

/-! #### The order of entries -/

theorem ofNode_eq (n : Nat) (id : NodeId) :
    SortKey.ofNode s'.graph n id = SortKey.ofNode s.graph n id := by
  induction n generalizing id with
  | zero => simp only [SortKey.ofNode, h.typeName_eq]
  | succ n ih =>
      have hnode := h.rearranges id
      unfold SortKey.ofNode
      simp only [h.typeName_eq, funext ih, Graph.shape]
      generalize s.graph.node id = node at hnode
      generalize s'.graph.node id = node' at hnode
      cases hnode with
      | same => rfl
      | map _ hn => simp only [hn]

theorem sort_eq (echo : NodeId → Trace String) (hookAllowed : Bool) (es : List Entry) :
    KeyOrder.sort s' echo hookAllowed es = KeyOrder.sort s echo hookAllowed es := by
  have hsimple (id : NodeId) : KeyOrder.isSimple (s'.graph.shape id) =
      KeyOrder.isSimple (s.graph.shape id) :=
    (h.rearranges id).congr KeyOrder.isSimple fun _ _ => rfl
  have hdescriptions : KeyOrder.descriptions? s'.graph es = KeyOrder.descriptions? s.graph es :=
    KeyOrder.descriptions?_congr fun e _ =>
      Node.describe_congr (h.typeName_eq e.key) (h.rearranges e.key).capability_eq
  simp only [KeyOrder.sort, KeyOrder.sortByText, hsimple, hdescriptions, h.ofNode_eq, h.size_eq,
    h.config_eq]

/-! #### Values -/

theorem hookAllowed_eq (st : RenderState) : st.hookAllowed s' = st.hookAllowed s := by
  simp only [RenderState.hookAllowed, h.config_eq, h.hatch_eq]

theorem ask_eq (id : NodeId) :
    Walk.ask s' (s'.graph.node id) = Walk.ask s (s.graph.node id) := by
  have hholder : (s'.graph.node id).shape.isHolder = (s.graph.node id).shape.isHolder :=
    (h.rearranges id).congr Shape.isHolder fun _ _ => rfl
  have hconsult : (s'.graph.node id).consult s'.config = (s.graph.node id).consult s.config :=
    Node.consult_congr (h.typeName_eq id) (h.rearranges id).capability_eq (by rw [h.config_eq])
  simp only [Walk.ask, hholder, hconsult, h.hookAllowed_eq]

theorem header_eq (mode : Mode) (id : NodeId) :
    mode.header s' (s'.graph.node id) = mode.header s (s.graph.node id) := by
  cases mode with
  | _ => simp only [Mode.header, h.config_eq, (h.rearranges id).typeName_eq,
      (h.rearranges id).lengthsOf_eq]

/-- Locks that are held do not tell the scenes apart. -/
theorem holding (held : List Address) : (s.holding held).Rearranged (s'.holding held) where
  config_eq := h.config_eq
  hatch_eq := h.hatch_eq
  size_eq := by simp [h.size_eq]
  rearranges := by
    intro id
    have hnode := h.rearranges id
    simp only [graph_holding, Graph.node_holding, Graph.shape]
    generalize s.graph.node id = node at hnode
    generalize s'.graph.node id = node' at hnode
    cases hnode with
    | same => exact .same _
    | map hperm hn =>
        simp only [hn]
        exact .map hperm rfl

/-! #### Levels -/

theorem form_cases (id : NodeId) :
    Walk.form s' id = Walk.form s id ∨ ∃ es es', es'.Perm es ∧
      Walk.form s id = .map es ∧ Walk.form s' id = .map es' := by
  unfold Walk.form
  rw [h.config_eq]
  obtain hshape | ⟨es, es', hperm, hs, hs'⟩ := h.shape_cases id
  · exact Or.inl (by rw [hshape])
  · exact Or.inr ⟨es, es', hperm, by rw [hs]; rfl, by rw [hs']; rfl⟩

/-- **Scenes that differ in the order of entries look alike** in a view that does not show the
steps of the walk. -/
theorem facing {L : Likeness} {mode : Mode} {texts₁ texts₂ : Texts} {visit₁ visit₂ : Visit} :
    Walk.Facing L.congruence ⟨s, mode, texts₁, visit₁⟩ ⟨s', mode, texts₂, visit₂⟩ where
  mode := rfl
  indent := by rw [h.config_eq]
  limit := by rw [h.config_eq]
  forms id :=
    (h.form_cases id).imp (fun hform => hform) fun ⟨es, es', _, hes, hes'⟩ => ⟨es, es', hes, hes'⟩
  holder id := ((h.rearranges id).congr Shape.isHolder fun _ _ => rfl).symm
  view q := (h.byteView?_eq q).symm
  indirection id hchain := by
    obtain hshape | ⟨es, es', -, hs, -⟩ := h.shape_cases id
    · exact hshape.symm
    · rw [Walk.form, hs] at hchain
      cases hchain
  chain n chain id := (h.chain_eq n chain id).symm
  fuel := by simp only [Chain.fuel, h.size_eq]
  header chain link := (h.chainHeader_eq mode chain link).symm
  step e _ _ := ⟨L.alike_step e e, .some rfl⟩

theorem front_keeps {L : Likeness} {mode : Mode} {texts₁ texts₂ : Texts} {visit₁ visit₂ : Visit}
    {f : Frame} (id : NodeId) :
    L.congruence.Keeps f (Walk.Side.front ⟨s, mode, texts₁, visit₁⟩ id)
      (Walk.Side.front ⟨s', mode, texts₂, visit₂⟩ id) := by
  let side₁ : Walk.Side := ⟨s, mode, texts₁, visit₁⟩
  let side₂ : Walk.Side := ⟨s', mode, texts₂, visit₂⟩
  refine L.congruence.calm.front (a := side₁) (b := side₂) rfl (h.header_eq mode id).symm
    (h.ask_eq id).symm fun answer => ?_
  exact Trace.Congruence.Keeps.step ⟨L.alike_step _ _, .some rfl⟩

end Rearranged

end Scene

/-! ### The same texts -/

namespace Likeness

variable {α : Type}

theorem writing_linked_iff {t₁ t₂ : Trace α} : writing.Linked Eq t₁ t₂ ↔
    t₁.effects.filter (fun e => e.text?.isSome) = t₂.effects.filter (fun e => e.text?.isSome) ∧
      t₁.result = t₂.result := by
  refine ⟨fun h => ⟨h.1, h.result_eq⟩, fun h => ⟨h.1, ?_⟩⟩
  rw [h.2]
  cases t₂.result with
  | none => exact .none
  | some a => exact .some rfl

theorem writing_linked_trans {t₁ t₂ t₃ : Trace α} (h₁ : writing.Linked Eq t₁ t₂)
    (h₂ : writing.Linked Eq t₂ t₃) : writing.Linked Eq t₁ t₃ := by
  rw [writing_linked_iff] at h₁ h₂ ⊢
  exact ⟨h₁.1.trans h₂.1, h₁.2.trans h₂.2⟩

end Likeness

/-! ### The order of rearranged entries -/

namespace KeyOrder

/-- **Whether something tells the keys of a map apart**: the order of values does, or a key that
does not compare directly brings in the texts. -/
def Decided (s : Scene) (es : List Entry) : Prop :=
  (∃ e ∈ es, isSimple (s.graph.shape e.key) = false) ∨
    es.Pairwise fun a b => s.graph.compareKeys a.key b.key ≠ .eq

/-- **Keys with different texts**, as they are shown with their types. -/
def TextsDiffer (s : Scene) (es : List Entry) : Prop :=
  es.Pairwise fun a b => (s.render true false a.key).result ≠ (s.render true false b.key).result

variable {s : Scene} {es es' : List Entry} {texts texts₁ texts₂ : NodeId → Trace String}

/-- Locks that are held decide nothing. -/
theorem decided_holding (held : List Address) : Decided (s.holding held) es ↔ Decided s es := by
  simp [Decided, Graph.compareKeys]

/-- A text that was found on less fuel is the text of the key. -/
theorem echo_eq_render {n : Nat} (hn : n ≤ s.fuel) {key : NodeId}
    (h : (Walk.echo (Walk.walk s n) key).result.isSome = true) :
    Walk.echo (Walk.walk s n) key = s.render true false key := by
  have hends : Walk.Ends s (.compact true false) n key {} := by
    simpa [Walk.echo, Trace.captured, Walk.Ends] using h
  exact congrArg Trace.captured (fromStart_congr (hends.walk_eq hn))

/-- **Found texts that tell keys apart.** -/
def Distinct (texts : NodeId → Trace String) (es : List Entry) : Prop :=
  es.Pairwise fun a b => (texts a.key).result.isSome = true →
    (texts b.key).result.isSome = true → (texts a.key).result ≠ (texts b.key).result

/-- Texts that differ do so as far as they were found on less fuel. -/
theorem TextsDiffer.distinct {n : Nat} (h : TextsDiffer s es) (hn : n ≤ s.fuel) :
    Distinct (Walk.echo (Walk.walk s n)) es := by
  refine h.imp fun {a b} hne ha hb => ?_
  rwa [echo_eq_render hn ha, echo_eq_render hn hb]

/-- Where nothing is asked, values or texts decide. -/
theorem criterion_cases (hecho : s.config.echoKeys = true) (es : List Entry) :
    (criterion s false es = .natural ∧ ∀ e ∈ es, isSimple (s.graph.shape e.key) = true) ∨
      criterion s false es = .echoed := by
  by_cases hsimple : ∀ e ∈ es, isSimple (s.graph.shape e.key) = true
  · exact Or.inl ⟨if_pos hsimple, hsimple⟩
  · rw [criterion, if_neg hsimple, if_neg (by simp), if_pos hecho]
    exact Or.inr rfl

/-- **What decides tells all keys apart.** -/
theorem order_ne_eq (hecho : s.config.echoKeys = true) (htexts : Distinct texts es)
    (hdecided : Decided s es)
    (hsome : criterion s false es = .echoed → ∀ e ∈ es, (texts e.key).result.isSome = true) :
    es.Pairwise fun a b => (criterion s false es).order s texts a b ≠ .eq := by
  rcases criterion_cases hecho es with ⟨hc, hsimple⟩ | hc
  · rw [hc]
    rcases hdecided with ⟨e, he, hnot⟩ | hnatural
    · rw [hsimple e he] at hnot
      cases hnot
    · exact hnatural
  · have hfound {e : Entry} (he : e ∈ es) :
        (texts e.key).result = some (compactText texts e) := by
      obtain ⟨t, ht⟩ := Option.isSome_iff_exists.1 (hsome hc e he)
      rw [compactText, ht]
      rfl
    rw [hc]
    refine htexts.imp_of_mem fun ha hb hne heq => hne (hsome hc _ ha) (hsome hc _ hb) ?_
    have hcompare : Ord.compare (compactText texts _) (compactText texts _) = .eq := heq
    rw [hfound ha, hfound hb, Std.LawfulEqCmp.eq_of_compare hcompare]

/-- **Rearranged entries come out in one order** where the order is decided. -/
theorem sort_perm (hecho : s.config.echoKeys = true) (hperm : es'.Perm es)
    (htexts : Distinct texts es) (hdecided : Decided s es) :
    (sort s texts false es').result = (sort s texts false es).result := by
  by_cases hsome : criterion s false es = .echoed → ∀ e ∈ es, (texts e.key).result.isSome = true
  · have hsome' : criterion s false es' = .echoed →
        ∀ e ∈ es', (texts e.key).result.isSome = true := by
      rw [criterion_perm hperm]
      exact fun hc e he => hsome hc e (hperm.mem_iff.1 he)
    rw [sort_result_eq hsome, sort_result_eq hsome', criterion_perm hperm,
      mergeSort_eq_of_perm hperm (order_ne_eq hecho htexts hdecided hsome)]
  · -- a text is missing in both arrangements
    have hnone {es : List Entry} (h : ¬(criterion s false es = .echoed →
        ∀ e ∈ es, (texts e.key).result.isSome = true)) :
        (sort s texts false es).result = none := by
      rw [← Option.not_isSome_iff_eq_none, sort_isSome_iff, needsTexts_iff]
      exact h
    rw [hnone hsome, hnone]
    rw [criterion_perm hperm]
    exact fun h => hsome fun hc e he => h hc e (hperm.mem_iff.2 he)

/-- Entries are ordered without a write. -/
theorem sort_writes_nothing (hlogs : ∀ key, ∀ e ∈ (texts key).effects, e.event?.isSome)
    (es : List Entry) :
    (sort s texts false es).effects.filter (fun e => e.text?.isSome) = [] := by
  rw [List.filter_eq_nil_iff]
  intro e he
  rw [sort_effects (fun _ => Effect.text?_eq_none)
    (fun key e he => Effect.text?_eq_none (hlogs key e he)) false es e he]
  simp

/-- The order needs nothing but the texts that decide. -/
theorem sort_alike {L : Likeness} (hecho : s.config.echoKeys = true)
    (h : NeedsTexts s false es → ∀ e ∈ es, L.Linked Eq (texts₁ e.key) (texts₂ e.key)) :
    L.Linked Eq (sort s texts₁ false es) (sort s texts₂ false es) := by
  unfold sort
  split
  · exact .pure rfl
  · next hall =>
      have hsimple : ∃ e ∈ es, isSimple (s.graph.shape e.key) = false := by simpa using hall
      have hasked : asked s.graph false es = pure none := rfl
      rw [sortByText_eq, sortByText_eq, hasked, pure_bind, pure_bind, settle, settle, if_pos hecho,
        if_pos hecho]
      refine (echoes_alike (h ⟨hecho, hsimple, by simp⟩)).bind ?_
      rintro keyed _ rfl
      exact .pure rfl

end KeyOrder

/-! ### Walks of rearranged scenes -/

namespace Walk

/-- **The walks that a render is made of**: its own, those below values that it shows, and those for
the texts of keys that it needs.  A walk for a text begins anew, but for the locks that are held
around it. -/
inductive Includes (s : Scene) (mode : Mode) (root : NodeId) :
    List Address → Mode → NodeId → Frame → Prop
  | root : Includes s mode root [] mode root .start
  | visited {held : List Address} {m : Mode} {id child : NodeId} {f g : Frame}
      (h : Includes s mode root held m id f) (hvisits : Visits (s.holding held) m id f child g) :
      Includes s mode root held m child g
  | echoed {held : List Address} {m : Mode} {id key : NodeId} {f : Frame}
      (h : Includes s mode root held m id f) (hechoed : Echoed (s.holding held) id f key) :
      Includes s mode root (f.held ++ held) (.compact true false) key .start

/-- **A render comes to a value while locks are held**, by itself or for the text of a key. -/
def ComesHolding (s : Scene) (mode : Mode) (root : NodeId) (locks : List Address)
    (id : NodeId) : Prop :=
  ∃ held m f, Includes s mode root held m id f ∧ locks = f.held ++ held

/-- Where nothing is asked, nothing stands in for a value. -/
theorem standsIn_of_disabled {s : Scene} (hmethods : s.config.disableMethods = true) (f : Frame)
    (id : NodeId) : standsIn s f id = false := by
  simp [standsIn, ask, run_get_bind, RenderState.hookAllowed, hmethods]

/-- What is not cut off is shown, where nothing is asked. -/
theorem Uncut.shown {s : Scene} {mode : Mode} {id : NodeId} {f : Frame}
    (h : Uncut s mode id f) (hmethods : s.config.disableMethods = true) : Shown s mode id f := by
  have hstands := standsIn_of_disabled hmethods f id
  unfold Uncut form at h
  unfold Shown
  split <;> simp_all [formOf, Opens]

end Walk

/-- A map is the same while locks are held. -/
theorem shape_holding_map_iff {s : Scene} {held : List Address} {id : NodeId} {es : List Entry} :
    (s.holding held).graph.shape id = .map (some es) ↔ s.graph.shape id = .map (some es) := by
  rw [Scene.graph_holding, Graph.shape_holding]
  cases s.graph.shape id with
  | _ => simp [Shape.holding]

namespace Scene.Rearranged

open Walk

variable {s s' : Scene} (h : s.Rearranged s') (hsort : s.config.sortKeys = true)
  (hecho : s.config.echoKeys = true) (hmethods : s.config.disableMethods = true)

include h hsort hecho hmethods

/-- **Rearranged entries are shown in one order** if the texts that decide it are alike in both
scenes, and where the entries come in another order something decides. -/
theorem arranged_keeps {f : Frame} {texts₁ texts₂ : Texts} {es es' : List Entry}
    (hperm : es'.Perm es)
    (hlogs : ∀ key, ∀ e ∈ (texts₁ f.held key).effects, e.event?.isSome)
    (htexts : KeyOrder.NeedsTexts s false es → ∀ e ∈ es,
      Likeness.writing.Linked Eq (texts₁ f.held e.key) (texts₂ f.held e.key))
    (hdecided : es' ≠ es → KeyOrder.Distinct (texts₁ f.held) es ∧ KeyOrder.Decided s es) :
    Likeness.writing.congruence.coupling.Rel f f (fun x y => x = y ∧ ∀ e ∈ x, e ∈ es)
      (arranged s texts₁ es) (arranged s' texts₂ es') := by
  have hnone (st : RenderState) : st.hookAllowed s = false := by
    simp [RenderState.hookAllowed, hmethods]
  have hnone' (st : RenderState) : st.hookAllowed s' = false :=
    (h.hookAllowed_eq st).trans (hnone st)
  have hsort' : s'.config.sortKeys = true := h.config_eq ▸ hsort
  -- first the entries come in the other order, and then with the texts of the other scene
  have hrearranged : Likeness.writing.Linked Eq (KeyOrder.sort s (texts₁ f.held) false es)
      (KeyOrder.sort s (texts₁ f.held) false es') := by
    by_cases hne : es' = es
    · exact hne ▸ .of_refl (fun _ => rfl) _
    · obtain ⟨hdistinct, hdecided⟩ := hdecided hne
      refine Likeness.writing_linked_iff.2 ⟨?_, ?_⟩
      · rw [KeyOrder.sort_writes_nothing hlogs, KeyOrder.sort_writes_nothing hlogs]
      · exact (KeyOrder.sort_perm hecho hperm hdistinct hdecided).symm
  have hechoed : Likeness.writing.Linked Eq (KeyOrder.sort s (texts₁ f.held) false es')
      (KeyOrder.sort s' (texts₂ f.held) false es') := by
    rw [h.sort_eq]
    refine KeyOrder.sort_alike hecho fun hneeds e he => htexts ?_ e (hperm.mem_iff.1 he)
    rw [KeyOrder.needsTexts_iff, ← KeyOrder.criterion_perm hperm]
    exact KeyOrder.needsTexts_iff.1 hneeds
  unfold arranged
  rw [if_pos hsort, if_pos hsort']
  intro st hst
  have hheld : st.held = f.held := (Frame.fits_iff.1 hst).2.2.2
  rw [run_get_bind, run_get_bind, hnone, hnone', hheld]
  refine ⟨?_, ?_⟩
  · refine (Likeness.writing_linked_trans hrearranged hechoed).bind ?_
    rintro ordered _ rfl
    exact .pure rfl
  · intro ordered τ hτ
    obtain ⟨ordered', hr, hτ⟩ := Trace.exists_of_bind hτ
    obtain ⟨rfl, rfl⟩ := Prod.mk.inj (Option.some.inj hτ)
    exact ⟨⟨rfl, fun e => KeyOrder.mem_of_sort hr⟩, hst⟩

variable {mode : Mode} {root : NodeId}
  (hmaps : ∀ {locks id es es'}, ComesHolding s mode root locks id →
    s.graph.shape id = .map (some es) → s'.graph.shape id = .map (some es') → es' ≠ es →
      KeyOrder.TextsDiffer (s.holding locks) es ∧ KeyOrder.Decided s es)

include hmaps

/-- **Scenes that differ in the order of entries are shown alike** where the order is decided. -/
theorem walk_keeps {n : Nat} (hn : n ≤ s.fuel) {held : List Address} {m : Mode} {id : NodeId}
    {f : Frame} (hin : Includes s mode root held m id f) :
    Likeness.writing.congruence.Keeps f (walk (s.holding held) n m id)
      (walk (s'.holding held) n m id) := by
  induction n generalizing held m id f with
  | zero => exact fun st _ => ⟨⟨rfl, .none⟩, by simp [walk]⟩
  | succ n ih =>
      have hbelow := Nat.le_of_succ_le hn
      rw [walk_succ, walk_succ]
      refine (h.holding held).facing.level_keeps ?_ ((h.holding held).front_keeps id)
        (fun _ _ _ => ⟨rfl, .some rfl⟩) ?_
      · intro child g huncut hchild
        exact ih hbelow (hin.visited ⟨huncut.shown hmethods, hchild⟩)
      · intro es es' hform hform' hlimit
        have hs := shape_of_map hform
        have hs' := shape_of_map hform'
        refine (h.holding held).arranged_keeps hsort hecho hmethods ?_
          (fun _ => Trace.captured_logs _) ?_ ?_
        · obtain hsame | ⟨es₁, es₂, hperm, h₁, h₂⟩ := (h.holding held).form_cases id
          · obtain rfl : es' = es := by simpa using hform'.symm.trans (hsame.trans hform)
            exact .refl _
          · obtain rfl : es₁ = es := by simpa using h₁.symm.trans hform
            obtain rfl : es₂ = es' := by simpa using h₂.symm.trans hform'
            exact hperm
        · intro hneeds e he
          have hopens : Opens (s.holding held) f id :=
            ⟨hlimit, standsIn_of_disabled (s := s.holding held) hmethods f id⟩
          have hhook : (f.state false).hookAllowed (s.holding held) = false := by
            simp [RenderState.hookAllowed, hmethods]
          have htext := ih hbelow (hin.echoed ⟨es, hs, hopens, hsort, hhook ▸ hneeds, e, he, rfl⟩)
          rw [← holding_holding, ← holding_holding] at htext
          exact Likeness.writing_telling.captured_linked (Likeness.fromStart_linked htext)
        · intro hne
          obtain ⟨hdiffer, hdecided⟩ := hmaps ⟨held, m, f, hin, rfl⟩ (shape_holding_map_iff.1 hs)
            (shape_holding_map_iff.1 hs') hne
          have hfuel : n ≤ (s.holding (f.held ++ held)).fuel := by
            simpa [fuel, Walk.fuel] using hbelow
          rw [← holding_holding] at hdiffer hfuel
          exact ⟨hdiffer.distinct hfuel, (KeyOrder.decided_holding held).2 hdecided⟩

theorem present_linked :
    Likeness.writing.Linked Eq (s.present mode root) (s'.present mode root) := by
  have hfuel : s'.fuel = s.fuel := by simp only [fuel, Walk.fuel, h.size_eq, h.config_eq]
  have hwalk := h.walk_keeps hsort hecho hmethods hmaps (Nat.le_refl _) .root
  rw [holding_nil, holding_nil] at hwalk
  unfold present
  rw [hfuel]
  exact Likeness.fromStart_linked hwalk

end Scene.Rearranged

namespace Scene

variable {s : Scene}

/-- **A scene with the entries of a map in another order.** -/
def arranged (s : Scene) (id : NodeId) (es : List Entry) : Scene :=
  { s with graph := s.graph.put id { s.graph.node id with shape := .map (some es) } }

theorem lt_size_of_map {id : NodeId} {es : List Entry} (hs : s.graph.shape id = .map (some es)) :
    id < s.graph.size := by
  by_contra hge
  rw [Graph.shape_of_size_le (Nat.le_of_not_lt hge)] at hs
  cases hs

theorem node_arranged {id : NodeId} {es : List Entry} (hid : id < s.graph.size)
    (other : NodeId) :
    (s.arranged id es).graph.node other =
      if other = id then { s.graph.node id with shape := .map (some es) }
      else s.graph.node other := by
  simp only [arranged, Graph.put, Graph.node, Array.getD_eq_getD_getElem?,
    Array.getElem?_setIfInBounds]
  by_cases hother : other = id
  · subst hother
    have hin : other < s.graph.nodes.size := hid
    simp only [if_true, hin]
    rfl
  · rw [if_neg (Ne.symm hother), if_neg hother]

theorem rearranged_arranged {id : NodeId} {es es' : List Entry}
    (hs : s.graph.shape id = .map (some es)) (hperm : es'.Perm es) :
    s.Rearranged (s.arranged id es') where
  config_eq := rfl
  hatch_eq := rfl
  size_eq := by simp [arranged, Graph.put, Graph.size]
  rearranges := by
    intro other
    rw [node_arranged (lt_size_of_map hs)]
    split
    · next hother =>
        rw [hother]
        exact .map hperm hs
    · exact .same _

/-- No other map is rearranged. -/
theorem eq_of_arranged {id other : NodeId} {es es' es₁ es₂ : List Entry}
    (hs : s.graph.shape id = .map (some es)) (hs₁ : s.graph.shape other = .map (some es₁))
    (hs₂ : (s.arranged id es').graph.shape other = .map (some es₂)) (hne : es₂ ≠ es₁) :
    other = id ∧ es₁ = es := by
  by_cases hother : other = id
  · rw [hother, hs, Shape.map.injEq, Option.some.injEq] at hs₁
    exact ⟨hother, hs₁.symm⟩
  · rw [Graph.shape, node_arranged (lt_size_of_map hs), if_neg hother] at hs₂
    rw [Graph.shape, hs₂, Shape.map.injEq, Option.some.injEq] at hs₁
    exact absurd hs₁ hne

/-- **The order in which entries are shown** where nothing is asked. -/
def order? (s : Scene) (es : List Entry) : Option (List Entry) :=
  (KeyOrder.sort s (Walk.echo (Walk.walk s s.fuel)) false es).result

end Scene

/-! ### Keys that compare equal -/

/-- The text of a scalar, a text or a handle. -/
def Shape.scalarText? : Shape → Option String
  | .bool b => some (Scalar.bool b)
  | .int v _ => some (Scalar.int 10 v)
  | .uint v _ => some (Scalar.uint 10 v)
  | .float v w => some (Scalar.float v w)
  | .text t => some t
  | .handle a => some (Scalar.address Scalar.addressWidth a)
  | _ => none

namespace Scene

variable {s : Scene}

/-- A scalar that is not asked is its type and its text. -/
theorem render_scalar (hmethods : s.config.disableMethods = true) {id : NodeId} {t : String}
    (ht : (s.graph.shape id).scalarText? = some t) :
    (s.render true false id).result = some ("(" ++ s.graph.typeName id ++ ")" ++ t) := by
  obtain ⟨n, hn⟩ := s.exists_fuel_eq
  have hask : Walk.ask s (s.graph.node id) = pure (.notAsked, false) := by
    funext st
    unfold Walk.ask
    rw [run_get_bind]
    simp [RenderState.hookAllowed, hmethods]
  obtain ⟨text, hform, rfl⟩ :
      ∃ text, Walk.form s id = .leaf text ∧ text (.compact true false) = t := by
    unfold Walk.form
    cases hs : s.graph.shape id <;> simp [hs, Shape.scalarText?] at ht <;>
      exact ⟨_, rfl, ht⟩
  unfold render present
  rw [hn, Walk.walk_succ, Walk.level_eq_shown, hform, Walk.Form.shown, Walk.fronted, Walk.front,
    hask]
  rfl

/-- **Which keys of one type compare equal and have different texts**: arrays, and numbers of one
value and different widths. -/
theorem tied_cases (hmethods : s.config.disableMethods = true) {a b : NodeId}
    (hname : s.graph.typeName a = s.graph.typeName b)
    (htexts : (s.render true false a).result ≠ (s.render true false b).result)
    (hsimple : KeyOrder.isSimple (s.graph.shape a) = true)
    (htie : s.graph.compareKeys a b = .eq) :
    (∃ p q, s.graph.shape a = .array p ∧ s.graph.shape b = .array q) ∨
      ∃ x w w', w ≠ w' ∧ s.graph.shape a = .float x w ∧ s.graph.shape b = .float x w' := by
  have hseen := SortKey.compare_eq_iff.1 htie
  have hdiffer {shape shape' : Shape} {t : String} (ha : s.graph.shape a = shape)
      (hb : s.graph.shape b = shape') (ht : shape.scalarText? = some t)
      (ht' : shape'.scalarText? = some t) : False := by
    rw [render_scalar hmethods (by rw [ha, ht]), render_scalar hmethods (by rw [hb, ht']),
      hname] at htexts
    exact htexts rfl
  unfold SortKey.ofNode at hseen
  cases ha : s.graph.shape a with
  | array p =>
      cases hb : s.graph.shape b <;> simp [ha, hb] at hseen
      exact Or.inl ⟨_, _, rfl, rfl⟩
  | float x w =>
      cases hb : s.graph.shape b <;> simp [ha, hb] at hseen
      next y w' =>
        subst hseen
        refine Or.inr ⟨x, w, w', ?_, rfl, rfl⟩
        rintro rfl
        exact hdiffer ha hb rfl rfl
  | bool x =>
      cases hb : s.graph.shape b <;> simp [ha, hb] at hseen
      exact (hdiffer ha hb rfl (by rw [hseen]; rfl)).elim
  | int z bits =>
      cases hb : s.graph.shape b <;> simp [ha, hb] at hseen
      exact (hdiffer ha hb rfl (by rw [hseen]; rfl)).elim
  | uint z bits =>
      cases hb : s.graph.shape b <;> simp [ha, hb] at hseen
      exact (hdiffer ha hb rfl (by rw [hseen]; rfl)).elim
  | text t =>
      cases hb : s.graph.shape b <;> simp [ha, hb] at hseen
      exact (hdiffer ha hb rfl (by rw [hseen]; rfl)).elim
  | handle x =>
      cases hb : s.graph.shape b <;> simp [ha, hb] at hseen
      exact (hdiffer ha hb rfl (by rw [hseen]; rfl)).elim
  | _ => simp [ha, KeyOrder.isSimple] at hsimple

end Scene

/-! ### When the order is canonical -/

namespace KeyOrder

/-- A list without repetitions that reads the same backwards is short. -/
theorem length_le_one_of_reverse_eq {α : Type} {xs : List α} (hnodup : xs.Nodup)
    (h : xs.reverse = xs) : xs.length ≤ 1 := by
  cases xs with
  | nil => exact Nat.zero_le _
  | cons x xs =>
      cases hlast : xs.reverse with
      | nil => simp [List.reverse_eq_nil_iff.1 hlast]
      | cons y ys =>
          -- the first one is also the last one
          rw [List.reverse_cons, hlast, List.cons_append, List.cons.injEq] at h
          have hmem : y ∈ xs := List.mem_reverse.1 (by simp [hlast])
          rw [h.1] at hmem
          exact absurd hmem (List.nodup_cons.1 hnodup).1

end KeyOrder

namespace Scene

open KeyOrder

variable {s : Scene} {es : List Entry}

/-- **Keys that compare directly and are in order** are shown as they are presented. -/
theorem entries_of_ordered (hsimple : ∀ e ∈ es, isSimple (s.graph.shape e.key) = true)
    (hordered : es.Pairwise fun a b => s.graph.compareKeys a.key b.key ≠ .gt)
    (texts : Texts) (visit : Visit) (mode : Mode) :
    Walk.entries s texts visit mode es = mode.list (Walk.entry s visit mode) es := by
  have hsort (echo : NodeId → Trace String) (hookAllowed : Bool) :
      KeyOrder.sort s echo hookAllowed es = pure es := by
    unfold KeyOrder.sort
    rw [if_pos (List.all_eq_true.2 hsimple), sortOn_keyed]
    refine congrArg pure (List.mergeSort_of_pairwise (hordered.imp fun hle => ?_))
    exact bne_iff_ne.2 hle
  unfold Walk.entries Walk.arranged
  simp only [hsort]
  split <;> rfl

/-- A map whose keys are in order, one level opened. -/
theorem present_of_ordered {id : NodeId} {mode : Mode} (hs : s.graph.shape id = .map (some es))
    (hsimple : ∀ e ∈ es, isSimple (s.graph.shape e.key) = true)
    (hordered : es.Pairwise fun a b => s.graph.compareKeys a.key b.key ≠ .gt) :
    s.present mode id = fromStart (Walk.fronted s mode id
      (mode.nest s id .map (mode.list (Walk.entry s (Walk.walk s (s.fuel - 1)) mode) es))) := by
  obtain ⟨n, hn⟩ := s.exists_fuel_eq
  have hform : Walk.form s id = .map es := by
    rw [Walk.form, hs]
    rfl
  rw [present, hn, Walk.walk_succ, Walk.level_eq_shown, hform, Walk.Form.shown,
    entries_of_ordered hsimple hordered, Nat.add_sub_cancel]

/-- The entries of a map with different texts are different. -/
theorem nodup_of_textsDiffer (htexts : TextsDiffer s es) : es.Nodup :=
  htexts.imp fun hne heq => hne (by rw [heq])

/-- **If an order is the same backwards, then something decides it.** -/
theorem decided_of_order?_reverse (htexts : TextsDiffer s es)
    (h : s.order? es.reverse = s.order? es) : Decided s es := by
  by_contra hnot
  rw [Decided, not_or] at hnot
  obtain ⟨hsimple, htied⟩ := hnot
  let texts := Walk.echo (Walk.walk s s.fuel)
  have hnatural : criterion s false es = .natural := by
    refine if_pos fun e he => ?_
    by_contra hkey
    exact hsimple ⟨e, he, Bool.eq_false_of_not_eq_true hkey⟩
  have hsorted {es' : List Entry} (hperm : es'.Perm es) :
      s.order? es' = some (es'.mergeSort (before (Criterion.natural.order s texts))) := by
    have hc := (criterion_perm hperm).trans hnatural
    rw [order?, sort_result_eq (fun hechoed => by rw [hc] at hechoed; cases hechoed), hc]
  rw [hsorted (List.reverse_perm es), hsorted (List.Perm.refl es), Option.some.injEq] at h
  -- two keys compare equal, and all keys that compare equal to them keep their order
  obtain ⟨a, b, hsub, htie⟩ : ∃ a b, [a, b].Sublist es ∧
      Criterion.natural.order s texts a b = .eq := by
    by_contra hnone
    refine htied (List.pairwise_iff_forall_sublist.2 fun {a b} hsub htie => ?_)
    exact hnone ⟨a, b, hsub, htie⟩
  have hclass := congrArg (List.filter fun x => Criterion.natural.order s texts a x == .eq) h
  rw [filter_mergeSort, filter_mergeSort, List.filter_reverse] at hclass
  have hshort := length_le_one_of_reverse_eq ((nodup_of_textsDiffer htexts).filter _) hclass
  have hself : Criterion.natural.order s texts a a = .eq := SortKey.compare_eq_iff.2 rfl
  have htwo := (hsub.filter fun x => Criterion.natural.order s texts a x == .eq).length_le
  simp [hself, htie] at htwo
  omega

/-- **When echoed keys make the order of a map canonical.**  Nothing is asked, keys are sorted and
their texts are wanted.  If some key does not compare directly, or no two keys compare equal, then
renders are the same for every order in which the entries are presented, as long as the texts of the
keys differ under the locks that are held wherever a render comes to the map; and so are dumps.
Where the texts differ, the entries are shown in the same order for all presentations in no other
case.  Keys of one type that compare equal though their texts differ are arrays, or floating point
numbers of one value and different widths. -/
theorem echoed_order_canonical_iff {id : NodeId} (hsort : s.config.sortKeys = true)
    (hecho : s.config.echoKeys = true) (hmethods : s.config.disableMethods = true)
    (hs : s.graph.shape id = .map (some es)) :
    (Decided s es → ∀ es', es'.Perm es →
      (∀ types details root, (∀ locks, Walk.ComesHolding s (.compact types details) root locks id →
          TextsDiffer (s.holding locks) es) →
        ((s.arranged id es').render types details root).result =
          (s.render types details root).result) ∧
      ∀ roots, (∀ root ∈ roots, ∀ locks, Walk.ComesHolding s .dump root locks id →
          TextsDiffer (s.holding locks) es) →
        ((s.arranged id es').dumpText roots).result = (s.dumpText roots).result) ∧
    (∀ locks, TextsDiffer (s.holding locks) es →
      ((∀ es', es'.Perm es → (s.holding locks).order? es' = (s.holding locks).order? es) ↔
        Decided s es)) ∧
    (TextsDiffer s es → ∀ a ∈ es, ∀ b ∈ es, a ≠ b →
      s.graph.typeName a.key = s.graph.typeName b.key →
      isSimple (s.graph.shape a.key) = true → s.graph.compareKeys a.key b.key = .eq →
        (∃ p q, s.graph.shape a.key = .array p ∧ s.graph.shape b.key = .array q) ∨
        ∃ x w w', w ≠ w' ∧ s.graph.shape a.key = .float x w ∧
          s.graph.shape b.key = .float x w') := by
  refine ⟨fun hdecided es' hperm => ?_,
    fun locks htexts => ⟨fun h => ?_, fun hdecided es' hperm => ?_⟩,
    fun htexts a ha b hb hne hname hsimple htie => ?_⟩
  · have hrearranged := rearranged_arranged hs hperm
    have hmaps {mode : Mode} {root : NodeId}
        (htexts : ∀ locks, Walk.ComesHolding s mode root locks id →
          TextsDiffer (s.holding locks) es)
        {locks : List Address} {other : NodeId} {es₁ es₂ : List Entry}
        (hcomes : Walk.ComesHolding s mode root locks other)
        (hs₁ : s.graph.shape other = .map (some es₁))
        (hs₂ : (s.arranged id es').graph.shape other = .map (some es₂)) (hne : es₂ ≠ es₁) :
        TextsDiffer (s.holding locks) es₁ ∧ Decided s es₁ := by
      obtain ⟨rfl, rfl⟩ := eq_of_arranged hs hs₁ hs₂ hne
      exact ⟨htexts locks hcomes, hdecided⟩
    refine ⟨fun types details root htexts => ?_, fun roots htexts => ?_⟩
    · have hpresent := hrearranged.present_linked hsort hecho hmethods (hmaps htexts)
      exact (Likeness.writing_telling.captured_linked hpresent).result_eq.symm
    · have hdump : Likeness.writing.Linked Eq (s.dump roots) ((s.arranged id es').dump roots) :=
        dump_linked_of_present fun root hroot =>
          hrearranged.present_linked hsort hecho hmethods (hmaps (htexts root hroot))
      exact (Likeness.writing_telling.captured_linked hdump).result_eq.symm
  · exact (decided_holding locks).1
      (decided_of_order?_reverse htexts (h es.reverse (List.reverse_perm es)))
  · exact sort_perm hecho hperm (htexts.distinct (Nat.le_refl _))
      ((decided_holding locks).2 hdecided)
  · have : Std.Symm fun a b : Entry =>
        (s.render true false a.key).result ≠ (s.render true false b.key).result :=
      ⟨fun _ _ h => h.symm⟩
    exact tied_cases hmethods hname (List.Pairwise.forall htexts ha hb hne) hsimple htie

/-- A map over two numbers, the records that hold them and the arrays that hold the records. -/
def cabinet (es : List Entry) : Scene where
  graph :=
    ⟨#[{ shape := .map (some es), typeName := "Cabinet" },
       { shape := .array (.ofItems [3]), typeName := "Drawer" },
       { shape := .array (.ofItems [4]), typeName := "Drawer" },
       { shape := .record [⟨"n", 5, .exported⟩], typeName := "Sheet" },
       { shape := .record [⟨"n", 6, .exported⟩], typeName := "Sheet" },
       { shape := .int 2 64, typeName := "i64" },
       { shape := .int 1 64, typeName := "i64" }]⟩
  config := { sortKeys := true, echoKeys := true, disableMethods := true }

/-- The arrays as keys. -/
def drawers : List Entry := [⟨1, 6⟩, ⟨2, 5⟩]

/-- The records as keys. -/
def sheets : List Entry := [⟨3, 6⟩, ⟨4, 5⟩]

/-- The arrays compare equal, so they are shown in the order in which they are presented; the
records do not compare directly, and their texts bring them into one order. -/
theorem cabinet_order_canonical_iff :
    TextsDiffer (cabinet drawers) drawers ∧ ¬Decided (cabinet drawers) drawers ∧
      ¬(∀ es', es'.Perm drawers → (cabinet drawers).order? es' = (cabinet drawers).order? drawers) ∧
      ((cabinet drawers).render false false 0).result =
        some "map[[\x7b2\x7d]:1 [\x7b1\x7d]:2]" ∧
      (((cabinet drawers).arranged 0 drawers.reverse).render false false 0).result =
        some "map[[\x7b1\x7d]:2 [\x7b2\x7d]:1]" ∧
      TextsDiffer (cabinet sheets) sheets ∧ Decided (cabinet sheets) sheets ∧
      (((cabinet sheets).arranged 0 sheets.reverse).render false false 0).result =
        ((cabinet sheets).render false false 0).result := by
  have hdrawers : TextsDiffer (cabinet drawers) drawers :=
    show List.Pairwise _ _ by decide +kernel
  have hsheets : TextsDiffer (cabinet sheets) sheets := show List.Pairwise _ _ by decide +kernel
  have htied : ¬Decided (cabinet drawers) drawers := show ¬(_ ∨ List.Pairwise _ _) by decide +kernel
  have hdecided : Decided (cabinet sheets) sheets := Or.inl ⟨⟨3, 6⟩, by decide, rfl⟩
  have hmap (es : List Entry) : (cabinet es).graph.shape 0 = .map (some es) := rfl
  obtain ⟨-, hiff, -⟩ := echoed_order_canonical_iff rfl rfl rfl (hmap drawers)
  obtain ⟨hsame, -, -⟩ := echoed_order_canonical_iff rfl rfl rfl (hmap sheets)
  refine ⟨hdrawers, htied, fun h => htied ((hiff [] hdrawers).1 h), ?_, ?_, hsheets, hdecided, ?_⟩
  · rw [render, present_of_ordered (hmap drawers) (by decide +kernel) (by decide +kernel)]
    decide +kernel
  · have harranged : (cabinet drawers).arranged 0 drawers.reverse = cabinet drawers.reverse := rfl
    rw [harranged, render,
      present_of_ordered (hmap drawers.reverse) (by decide +kernel) (by decide +kernel)]
    decide +kernel
  · -- there is no lock in the scene
    exact (hsame hdecided sheets.reverse (List.reverse_perm _)).1 false false 0 fun _ _ => hsheets

/-- A map behind two locks, whose keys lead to one of the locks each. -/
def vault : Scene where
  graph :=
    ⟨#[{ shape := .guarded 0x10 (some 1) ⟨true, false⟩, typeName := "Lock" },
       { shape := .guarded 0x20 (some 2) ⟨true, false⟩, typeName := "Lock" },
       { shape := .map (some [⟨3, 5⟩, ⟨4, 6⟩]), typeName := "Vault" },
       { shape := .record [⟨"lock", 0, .exported⟩], typeName := "Key" },
       { shape := .record [⟨"lock", 1, .exported⟩], typeName := "Key" },
       { shape := .int 2 64, typeName := "i64" },
       { shape := .int 1 64, typeName := "i64" }]⟩
  config := { sortKeys := true, echoKeys := true, disableMethods := true, maxDepth := 1 }

/-- The texts of its keys differ, but not under the locks that are held where it is met. -/
example : TextsDiffer vault [⟨3, 5⟩, ⟨4, 6⟩] ∧
    ¬TextsDiffer (vault.holding [0x20, 0x10]) [⟨3, 5⟩, ⟨4, 6⟩] :=
  ⟨show List.Pairwise _ _ by decide +kernel, show ¬List.Pairwise _ _ by decide +kernel⟩

end Scene

end ValueLens
