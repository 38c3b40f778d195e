/-
**Walks of two kindred scenes.**

What one level of the walk does in two scenes that look alike is put together here: what a value
answers, the order in which the entries of a map are shown, and the forms of a level.  Whether the
two scenes answer alike is asked only where a walk may ask, so what is *heard* of a node is
compared, not what the node could answer.

The compact text of a key is a walk of its own, which is out of private again.  Where such texts
count, what is met in private has to be alike in public too, and the likeness has to tell texts
apart.

Main definitions:

* `ValueLens.Scene.heard` — what is heard of a node that is asked.

Main results:

* `ValueLens.Kin.sort_alike` — the order of entries in two scenes;
* `ValueLens.Kin.level_tied` — **the rule of a level in two scenes**;
* `ValueLens.Kin.walk_tied` — walks in which the same is heard are alike;
* `ValueLens.Kin.present_linked`, `ValueLens.Kin.dump_linked` — and so is what is shown.
-/
import ValueLens.Proofs.Kinship

set_option relaxedAutoImplicit false
set_option autoImplicit false

namespace ValueLens

open Render

/-! ### Answers and orders alike -/

namespace Node

variable {n₁ n₂ : Node}

theorem describe_congr (hname : n₁.typeName = n₂.typeName)
    (hcapability : n₁.capability = n₂.capability) : n₁.describe = n₂.describe := by
  simp only [describe, hname, hcapability]

theorem consult_congr {c₁ c₂ : Config} (hname : n₁.typeName = n₂.typeName)
    (hcapability : n₁.capability = n₂.capability)
    (hcontinue : c₁.continueOnMethod = c₂.continueOnMethod) : n₁.consult c₁ = n₂.consult c₂ := by
  simp only [consult, consult.description, describe_congr hname hcapability, hcontinue]

theorem consult_of_absent {n : Node} (h : n.capability = .absent) (c : Config) :
    n.consult c = pure (.absent, false) := by
  simp only [consult, describe, h]
  rfl

end Node

namespace KeyOrder

theorem descriptions?_congr {g₁ g₂ : Graph} {es : List Entry}
    (h : ∀ e ∈ es, (g₁.node e.key).describe = (g₂.node e.key).describe) :
    descriptions? g₁ es = descriptions? g₂ es := by
  induction es with
  | nil => rfl
  | cons e es ih =>
      simp only [descriptions?]
      rw [h e (by simp), ih fun e' he' => h e' (by simp [he'])]

/-- One key without a description is enough for none. -/
theorem descriptions?_of_absent {g : Graph} {e : Entry} (es : List Entry)
    (h : (g.node e.key).capability = .absent) : descriptions? g (e :: es) = pure none := by
  simp only [descriptions?, Node.describe, h]
  rfl

theorem echoes_alike {L : Likeness} {echo₁ echo₂ : NodeId → Trace String} {es : List Entry}
    (h : ∀ e ∈ es, L.Linked Eq (echo₁ e.key) (echo₂ e.key)) :
    L.Linked Eq (echoes echo₁ es) (echoes echo₂ es) := by
  induction es with
  | nil => exact .pure rfl
  | cons e es ih =>
      refine (h e (by simp)).bind ?_
      rintro t _ rfl
      refine (ih fun e' he' => h e' (by simp [he'])).bind ?_
      rintro keyed _ rfl
      exact .pure rfl

end KeyOrder

/-- Dumps are alike if every value is shown alike. -/
theorem Scene.dump_linked_of_present {L : Likeness} {s₁ s₂ : Scene} {roots : List NodeId}
    (h : ∀ id ∈ roots, L.Linked Eq (s₁.present .dump id) (s₂.present .dump id)) :
    L.Linked Eq (s₁.dump roots) (s₂.dump roots) := by
  have hline (t : String) : L.Linked Eq (Trace.write t) (Trace.write t) := .of_refl (fun _ => rfl) _
  induction roots with
  | nil => exact .pure rfl
  | cons id rest ih =>
      cases rest with
      | nil => exact (h id (by simp)).bind fun _ _ _ => hline _
      | cons next rest =>
          refine (h id (by simp)).bind fun _ _ _ => ?_
          refine (hline _).bind fun _ _ _ => (hline _).bind fun _ _ _ => ?_
          exact ih fun id hid => h id (List.mem_cons_of_mem _ hid)

/-- **What is heard of a value** when it is asked, in private or not: nothing where nothing may be
asked. -/
def Scene.heard (s : Scene) (secret : Bool) (id : NodeId) : Capability :=
  if s.mayAsk secret then (s.graph.node id).capability else .absent

@[simp] theorem Scene.heard_holding (s : Scene) (held : List Address) (secret : Bool)
    (id : NodeId) : (s.holding held).heard secret id = s.heard secret id := by
  simp [heard, mayAsk]

namespace Kin

variable {L : Likeness} {f : Address → Address} {Deep : Nat → Nat → Prop}
  {Admits : NodeId → Bool → Prop} {s₁ s₂ : Scene} {secret : Bool} {mode : Mode}
  {visit₁ visit₂ : Visit}
  (hk : Kin L f Deep Admits s₁ s₂)

include hk

/-! ### Values -/

/-- What is asked without an answer is not told from what is not asked. -/
theorem ask_ties {id : NodeId} (hheard : s₁.heard secret id = s₂.heard secret id)
    (hcontinue : s₁.config.continueOnMethod = s₂.config.continueOnMethod) :
    L.TiedBy f Deep secret (fun x y => x.2 = y.2) (Walk.ask s₁ (s₁.graph.node id))
      (Walk.ask s₂ (s₂.graph.node id)) := by
  refine .get_bind ?_
  rintro st₁ _ ⟨depth, rfl, rfl, -⟩
  have hholder : (s₁.graph.node id).shape.isHolder = (s₂.graph.node id).shape.isHolder :=
    (hk.resembles id).isHolder_eq
  have hallowed (s : Scene) (st : RenderState) : st.hookAllowed s = s.mayAsk st.inPrivate := rfl
  rw [hholder, hallowed, hallowed]
  cases (s₂.graph.node id).shape.isHolder with
  | true => exact .pure rfl
  | false =>
      cases h₁ : s₁.mayAsk st₁.inPrivate with
      | true =>
          cases h₂ : s₂.mayAsk st₁.inPrivate with
          | true =>
              simp only [Scene.heard, h₁, h₂, if_true] at hheard
              rw [Node.consult_congr (hk.typeName_eq id) hheard hcontinue]
              refine .lift (.of_refl ?_ _)
              intro answer
              rfl
          | false =>
              have habsent : (s₁.graph.node id).capability = .absent := by
                simpa [Scene.heard, h₁, h₂] using hheard
              rw [Node.consult_of_absent habsent]
              exact .pure rfl
      | false =>
          cases h₂ : s₂.mayAsk st₁.inPrivate with
          | true =>
              have habsent : (s₂.graph.node id).capability = .absent := by
                simpa [Scene.heard, h₁, h₂] using hheard.symm
              rw [Node.consult_of_absent habsent]
              exact .pure rfl
          | false => exact .pure rfl

/-! ### The order of entries -/

theorem ofNode_eq (n : Nat) (id : NodeId) :
    SortKey.ofNode s₁.graph n id = SortKey.ofNode s₂.graph n id := by
  induction n generalizing id with
  | zero => simp only [SortKey.ofNode, hk.typeName_eq]
  | succ n ih =>
      have hres := hk.resembles id
      have hname := hk.typeName_eq id
      unfold SortKey.ofNode
      generalize s₁.graph.shape id = shape₁ at hres
      generalize s₂.graph.shape id = shape₂ at hres
      cases hres with
      | same _ =>
          cases shape₁ with
          | array q => simp only [funext ih]
          | _ => simp only [hname]
      | array hitems _ => simp only [hitems, funext ih]
      | _ => simp only [hname]

/-- Keys of which the same is heard are described alike. -/
theorem asked_eq {es : List Entry} (hne : es ≠ [])
    (hheard : ∀ e ∈ es, s₁.heard secret e.key = s₂.heard secret e.key) :
    KeyOrder.asked s₁.graph (s₁.mayAsk secret) es =
      KeyOrder.asked s₂.graph (s₂.mayAsk secret) es := by
  obtain ⟨e, rest, rfl⟩ := List.exists_cons_of_ne_nil hne
  have hfirst := hheard e (by simp)
  unfold KeyOrder.asked
  cases h₁ : s₁.mayAsk secret with
  | true =>
      cases h₂ : s₂.mayAsk secret with
      | true =>
          rw [if_pos rfl, if_pos rfl]
          refine KeyOrder.descriptions?_congr fun e' he' => ?_
          refine Node.describe_congr (hk.typeName_eq e'.key) ?_
          simpa [Scene.heard, h₁, h₂] using hheard e' he'
      | false =>
          have habsent : (s₁.graph.node e.key).capability = .absent := by
            simpa [Scene.heard, h₁, h₂] using hfirst
          rw [if_pos rfl, if_neg Bool.false_ne_true, KeyOrder.descriptions?_of_absent rest habsent]
  | false =>
      cases h₂ : s₂.mayAsk secret with
      | true =>
          have habsent : (s₂.graph.node e.key).capability = .absent := by
            simpa [Scene.heard, h₁, h₂] using hfirst.symm
          rw [if_neg Bool.false_ne_true, if_pos rfl, KeyOrder.descriptions?_of_absent rest habsent]
      | false => rw [if_neg Bool.false_ne_true, if_neg Bool.false_ne_true]

/-- **The order of entries in two kindred scenes.** -/
theorem sort_alike {echo₁ echo₂ : NodeId → Trace String} {es : List Entry}
    (hheard : ∀ e ∈ es, s₁.heard secret e.key = s₂.heard secret e.key)
    (hecho : s₁.config.echoKeys = true → ∀ e ∈ es, L.Linked Eq (echo₁ e.key) (echo₂ e.key)) :
    L.Linked Eq (KeyOrder.sort s₁ echo₁ (s₁.mayAsk secret) es)
      (KeyOrder.sort s₂ echo₂ (s₂.mayAsk secret) es) := by
  have hsimple (e : Entry) : KeyOrder.isSimple (s₁.graph.shape e.key) =
      KeyOrder.isSimple (s₂.graph.shape e.key) := (hk.resembles e.key).isSimple_eq
  unfold KeyOrder.sort
  simp only [hsimple, hk.ofNode_eq, hk.size_eq]
  by_cases hall : (es.all fun e => KeyOrder.isSimple (s₂.graph.shape e.key)) = true
  · rw [if_pos hall, if_pos hall]
    exact .pure rfl
  · rw [if_neg hall, if_neg hall, KeyOrder.sortByText_eq, KeyOrder.sortByText_eq]
    have hne : es ≠ [] := by
      rintro rfl
      exact hall rfl
    rw [hk.asked_eq hne hheard]
    refine (Likeness.Linked.of_refl (fun _ => rfl) _).bind ?_
    rintro described _ rfl
    cases described with
    | some keyed => exact .pure rfl
    | none =>
        simp only [KeyOrder.settle, hk.echoKeys_eq]
        cases hkeys : s₁.config.echoKeys with
        | false => exact .pure rfl
        | true =>
            refine (KeyOrder.echoes_alike (hecho hkeys)).bind ?_
            rintro keyed _ rfl
            exact .pure rfl

/-! ### Levels -/

section Levels

variable {texts₁ texts₂ : Texts} {id : NodeId} (hid : Admits id secret)
  (hvisit : ∀ child hidden, Admits child hidden →
    L.Tied f Deep hidden (visit₁ mode child) (visit₂ mode child))
  (hsort : s₁.config.sortKeys = true → ∀ held es, s₁.graph.shape id = .map (some es) →
    L.Linked Eq (KeyOrder.sort s₁ (texts₁ held) (s₁.mayAsk secret) es)
      (KeyOrder.sort s₂ (texts₂ (held.map f)) (s₂.mayAsk secret) es))
  (hmode : (∀ a, f a = a) ∨ mode.hidesAddresses s₁.config = true)

include hid hvisit hsort hmode

/-- The forms of a node in two scenes. -/
theorem forms_meet : (L.coupling f Deep).Meets ⟨s₁, mode, texts₁, visit₁⟩
    ⟨s₂, mode, texts₂, visit₂⟩ secret id id (Walk.form s₁ id) (Walk.form s₂ id) := by
  let side₁ : Walk.Side := ⟨s₁, mode, texts₁, visit₁⟩
  let side₂ : Walk.Side := ⟨s₂, mode, texts₂, visit₂⟩
  have hchain : (L.coupling f Deep).Couples secret (side₁.indirection id) (side₂.indirection id) :=
    hk.indirection_tied hmode hid fun child hchild => hvisit child secret hchild
  have houtlet {child : NodeId} {hidden : Bool}
      (h : (child, hidden) ∈ (s₁.graph.shape id).outlets) :
      L.Tied f Deep (secret || hidden) (visit₁ mode child) (visit₂ mode child) :=
    hvisit child _ (hk.admits_outlet hid h)
  have hres := hk.resembles id
  have hview {q₁ q₂ : Sequence} (h₁ : (s₁.graph.shape id).elements? = some q₁)
      (h₂ : (s₂.graph.shape id).elements? = some q₂) := hk.view_eq h₁ h₂
  unfold Walk.form
  generalize s₁.graph.shape id = shape₁ at hres houtlet hsort hview
  generalize s₂.graph.shape id = shape₂ at hres hview
  have hpart {child : NodeId} (h : (child, false) ∈ shape₁.outlets) :
      (L.coupling f Deep).Nested side₁ side₂ secret child child :=
    hk.nested_tied (by simpa using houtlet h)
  have hsequence {q₁ q₂ : Sequence} (hitems : q₁.items = q₂.items)
      (hview : Walk.byteView? s₁ q₁ = Walk.byteView? s₂ q₂)
      (h : ∀ child ∈ q₁.items, (child, false) ∈ shape₁.outlets) :
      (L.coupling f Deep).Meets side₁ side₂ secret id id (.sequence q₁) (.sequence q₂) := by
    refine .sequence secret ?_ fun h =>
      hk.nest_tied mode id .sequence (hk.elements_tied hview h)
    rw [← hitems]
    exact List.forall₂_same.2 fun child hchild => hpart (h child hchild)
  cases hres with
  | array hitems _ => exact hsequence hitems (hview rfl rfl) (by simp [Shape.outlets])
  | slice hitems _ => exact hsequence hitems (hview rfl rfl) (by simp [Shape.outlets])
  | pointer a target => exact .chain hchain
  | guarded a content lock =>
      rw [Walk.formOf, Walk.formOf, hk.disableGuardResolution_eq]
      cases hd : s₁.config.disableGuardResolution with
      | false => exact .chain hchain
      | true =>
          -- a guard is shown by its address only where guards are not resolved
          rcases hk.discreet with hf | ⟨hresolved, -⟩
          · rw [hf a]
            exact .leaf (.write _)
          · simp [hd] at hresolved
  | same h =>
      cases shape₁ with
      | array q => exact hsequence rfl (hview rfl rfl) (by simp [Shape.outlets])
      | slice q =>
          cases q with
          | none => exact .leaf (.write _)
          | some q => exact hsequence rfl (hview rfl rfl) (by simp [Shape.outlets])
      | map es =>
          cases es with
          | none => exact .leaf (.write _)
          | some es =>
              refine .map secret (hk.arranged_tied (fun hs held => hsort hs held es rfl) ?_)
                fun h => hk.nest_tied mode id .map h
              intro e he
              refine ⟨hpart ?_, hpart ?_⟩
              · simp only [Shape.outlets, List.mem_flatMap]
                exact ⟨e, he, by simp⟩
              · simp only [Shape.outlets, List.mem_flatMap]
                exact ⟨e, he, by simp⟩
      | record fds =>
          refine .record secret (List.forall₂_same.2 fun fd hfd => ⟨rfl, rfl, ?_⟩) fun h =>
            hk.nest_tied mode id .record h
          exact hk.nested_tied (houtlet (List.mem_map.2 ⟨fd, hfd, rfl⟩))
      | holder content =>
          cases content with
          | none => exact .leaf (.write _)
          | some content =>
              have hheld := houtlet (List.mem_singleton.2 rfl)
              rw [Bool.or_false] at hheld
              exact .held hheld
      | invalid => exact .invalid (.seq (.step _ _) (hk.invalid_tied mode))
      | pointer a target => simp [Shape.address?] at h
      | guarded a content lock => simp [Shape.address?] at h
      | _ => exact .leaf (.write _)

/-- **The rule of a level in two scenes**: if what is below is alike, and what the value answers and
the order of its entries, then the level is alike. -/
theorem level_tied (hask : L.TiedBy f Deep secret (fun x y => x.2 = y.2)
      (Walk.ask s₁ (s₁.graph.node id)) (Walk.ask s₂ (s₂.graph.node id))) :
    L.Tied f Deep secret (Walk.level s₁ texts₁ visit₁ mode id)
      (Walk.level s₂ texts₂ visit₂ mode id) := by
  refine Coupling.level_couples (C := L.coupling f Deep) (a := ⟨s₁, mode, texts₁, visit₁⟩)
    (b := ⟨s₂, mode, texts₂, visit₂⟩) hk.fits ?_ (hk.forms_meet hid hvisit hsort hmode)
  refine .seq (hk.header_tied mode id) (.bind hask ?_)
  rintro ⟨answer₁, standsIn⟩ ⟨answer₂, _⟩ rfl
  exact .seq (.step _ _) (.pure rfl)

end Levels

/-! ### Walks -/

section Walks

/-- **Walks of two kindred scenes in which the same is heard are alike.** -/
theorem walk_tied
    (hheard : ∀ {id secret}, Admits id secret → s₁.heard secret id = s₂.heard secret id)
    (hcontinue : s₁.config.continueOnMethod = s₂.config.continueOnMethod)
    (hecho : s₁.config.sortKeys = true → s₁.config.echoKeys = true →
      L.Telling ∧ ∀ {id secret}, Admits id secret → Admits id false)
    (n : Nat) (hmode : (∀ a, f a = a) ∨ mode.hidesAddresses s₁.config = true)
    {id : NodeId} (hid : Admits id secret) :
    L.Tied f Deep secret (Walk.walk s₁ n mode id) (Walk.walk s₂ n mode id) := by
  induction n generalizing s₁ s₂ mode id secret with
  | zero => exact .stalled
  | succ n ih =>
      refine hk.level_tied hid
        (fun child hidden hchild => ih hk hheard hcontinue hecho hmode hchild) ?_ hmode
        (hk.ask_ties (hheard hid) hcontinue)
      intro hsort held es hs
      have hkey {e : Entry} (he : e ∈ es) : Admits e.key secret := by
        have houtlet : (e.key, false) ∈ (s₁.graph.shape id).outlets := by
          simp only [hs, Shape.outlets, List.mem_flatMap]
          exact ⟨e, he, by simp⟩
        simpa using hk.admits_outlet hid houtlet
      refine hk.sort_alike (fun e he => hheard (hkey he)) fun hkeys e he => ?_
      -- the compact text of a key is a walk of its own, which shows no addresses
      obtain ⟨htelling, hpublic⟩ := hecho hsort hkeys
      have hwalk : L.Tied f Deep false
          (Walk.walk (s₁.holding held) n (.compact true false) e.key)
          (Walk.walk (s₂.holding (held.map f)) n (.compact true false) e.key) :=
        ih (hk.holding held) (fun hid => by simpa using hheard hid) hcontinue hecho (Or.inr rfl)
          (hpublic (hkey he))
      exact htelling.captured_linked (hwalk.fromStart (RenderState.beside_start f hk.deep_zero))

variable
  (hheard : ∀ {id secret}, Admits id secret → s₁.heard secret id = s₂.heard secret id)
  (hcontinue : s₁.config.continueOnMethod = s₂.config.continueOnMethod)
  (hecho : s₁.config.sortKeys = true → s₁.config.echoKeys = true →
    L.Telling ∧ ∀ {id secret}, Admits id secret → Admits id false)

include hheard hcontinue hecho

theorem present_linked (hmode : (∀ a, f a = a) ∨ mode.hidesAddresses s₁.config = true)
    {id : NodeId} (hid : Admits id false) :
    L.Linked Eq (s₁.present mode id) (s₂.present mode id) := by
  have hfuel : s₁.fuel = s₂.fuel := by
    simp only [Scene.fuel, Walk.fuel, hk.size_eq, hk.maxDepth_eq]
  unfold Scene.present
  rw [hfuel]
  exact (hk.walk_tied hheard hcontinue hecho _ hmode hid).fromStart
    (RenderState.beside_start f hk.deep_zero)

theorem dump_linked (hmode : (∀ a, f a = a) ∨ Mode.dump.hidesAddresses s₁.config = true)
    {roots : List NodeId} (hroots : ∀ id ∈ roots, Admits id false) :
    L.Linked Eq (s₁.dump roots) (s₂.dump roots) :=
  Scene.dump_linked_of_present fun id hid =>
    hk.present_linked hheard hcontinue hecho hmode (hroots id hid)

end Walks

end Kin

end ValueLens
