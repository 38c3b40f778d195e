/-
**Two scenes side by side.**

Two graphs may differ in what their nodes answer when asked, in the raw views of their sequences or
in the addresses of their indirections, and still be walked alike, because a walk takes its way from
the rest.  Two scenes are *kin* under a likeness if they look alike wherever a walk looks, up to a
renaming of addresses that is either the identity or shows nowhere.

Which nodes a walk meets, and whether it met a private field on the way to them, is bounded by a
relation of nodes and privacies that is closed under the outlets of the graph; what the nodes answer
has to agree only there.

This module holds what does not depend on answers: what is written around values, brackets and byte
buffers, and chains of indirections.

Main definitions:

* `ValueLens.Shape.outlets`, `ValueLens.Graph.Sees` — what can be seen from a node, and from some
  roots through a private field or not;
* `ValueLens.Shape.Resembles` — shapes alike up to addresses and raw views;
* `ValueLens.Kin` — two scenes that look alike;
* `ValueLens.RenderState.Beside`, `ValueLens.Likeness.Tied` — states side by side, and computations
  alike from there;
* `ValueLens.Likeness.coupling` — the coupling of such computations.

Main results:

* `ValueLens.Kin.holding` — scenes that look alike do so while locks are held;
* `ValueLens.Kin.fits`, `ValueLens.Kin.nest_tied` — what is written around values;
* `ValueLens.Kin.chain_ties`, `ValueLens.Kin.follow_tied` — **chains of indirections in two
  scenes**.
-/
import Mathlib.Data.List.Basic
import ValueLens.Proofs.Holding
import ValueLens.Proofs.Likeness

set_option relaxedAutoImplicit false
set_option autoImplicit false

namespace ValueLens

open Render

/-! ### What can be seen -/

/-- **What can be seen from a shape**, and whether it stands behind a private field. -/
def Shape.outlets : Shape → List (NodeId × Bool)
  | .holder (some content) => [(content, false)]
  | .array q => q.items.map (·, false)
  | .slice (some q) => q.items.map (·, false)
  | .map (some es) => es.flatMap fun e => [(e.key, false), (e.value, false)]
  | .record fds => fds.map fun fd => (fd.value, fd.visibility == .internal)
  | .pointer _ (some target) => [(target, false)]
  | .guarded _ (some content) _ => [(content, false)]
  | _ => []

/-- **What can be seen from some roots**, along a way that passes a private field or does not. -/
inductive Graph.Sees (g : Graph) (roots : List NodeId) : NodeId → Bool → Prop
  | root {id : NodeId} (h : id ∈ roots) : Sees g roots id false
  | next {id child : NodeId} {passed hidden : Bool} (h : Sees g roots id passed)
      (hchild : (child, hidden) ∈ (g.shape id).outlets) : Sees g roots child (passed || hidden)

/-! ### Shapes alike -/

/-- **Shapes alike up to the addresses of indirections**, which are renamed, **and up to the raw
views of sequences.** -/
inductive Shape.Resembles (f : Address → Address) : Shape → Shape → Prop
  | same {shape : Shape} (h : shape.address? = none) : Resembles f shape shape
  | array {q₁ q₂ : Sequence} (hitems : q₁.items = q₂.items)
      (hcapacity : q₁.capacity = q₂.capacity) :
      Resembles f (.array q₁) (.array q₂)
  | slice {q₁ q₂ : Sequence} (hitems : q₁.items = q₂.items)
      (hcapacity : q₁.capacity = q₂.capacity) :
      Resembles f (.slice (some q₁)) (.slice (some q₂))
  | pointer (a : Address) (target : Option NodeId) :
      Resembles f (.pointer a target) (.pointer (f a) target)
  | guarded (a : Address) (content : Option NodeId) (lock : Lock) :
      Resembles f (.guarded a content lock) (.guarded (f a) content lock)

namespace Shape

/-- The elements of a sequence that is not nil. -/
def elements? : Shape → Option Sequence
  | .array q => some q
  | .slice q => q
  | _ => none

namespace Resembles

variable {f : Address → Address} {shape₁ shape₂ : Shape}

theorem refl_of_id (shape : Shape) : shape.Resembles id shape := by
  cases shape with
  | pointer a target => exact .pointer a target
  | guarded a content lock => exact .guarded a content lock
  | _ => exact .same rfl

theorem isHolder_eq (h : shape₁.Resembles f shape₂) : shape₁.isHolder = shape₂.isHolder := by
  cases h with
  | _ => rfl

theorem toByte?_eq (h : shape₁.Resembles f shape₂) : shape₁.toByte? = shape₂.toByte? := by
  cases h with
  | _ => rfl

theorem isSimple_eq (h : shape₁.Resembles f shape₂) :
    KeyOrder.isSimple shape₁ = KeyOrder.isSimple shape₂ := by
  cases h with
  | _ => rfl

/-- Shapes alike are alike while locks are held, under their names in the two graphs. -/
protected theorem holding (h : shape₁.Resembles f shape₂) (hf : Function.Injective f)
    (held : List Address) :
    (shape₁.holding held).Resembles f (shape₂.holding (held.map f)) := by
  cases h with
  | same h =>
      have hguard (a : Address) (content : Option NodeId) (lock : Lock) :
          shape₁ ≠ .guarded a content lock := by
        rintro rfl
        simp [Shape.address?] at h
      rw [shape₁.holding_eq_self held hguard, shape₁.holding_eq_self (held.map f) hguard]
      exact .same h
  | array hitems hcapacity => exact .array hitems hcapacity
  | slice hitems hcapacity => exact .slice hitems hcapacity
  | pointer a target => exact .pointer a target
  | guarded a content lock =>
      have hheld : (held.map f).contains (f a) = held.contains a := by
        rw [Bool.eq_iff_iff]
        simp [hf.eq_iff]
      simp only [Shape.holding, hheld]
      exact .guarded a content _

theorem lengthsOf_eq (h : shape₁.Resembles f shape₂) (c : Config) :
    Mode.lengthsOf c shape₁ = Mode.lengthsOf c shape₂ := by
  cases h with
  | array hitems hcapacity => simp only [Mode.lengthsOf, hitems, hcapacity]
  | slice hitems hcapacity => simp only [Mode.lengthsOf, hitems, hcapacity]
  | _ => rfl

end Resembles

end Shape

/-! ### Byte buffers alike -/

namespace Walk

variable {f : Address → Address} {s₁ s₂ : Scene}

theorem startsWithByte_eq (hres : ∀ id, (s₁.graph.shape id).Resembles f (s₂.graph.shape id))
    (hname : ∀ id, s₁.graph.typeName id = s₂.graph.typeName id)
    (hbyte : s₁.config.isByteElement = s₂.config.isByteElement) {q₁ q₂ : Sequence}
    (hitems : q₁.items = q₂.items) : startsWithByte s₁ q₁ = startsWithByte s₂ q₂ := by
  unfold startsWithByte
  rw [hitems]
  cases q₂.items with
  | nil => rfl
  | cons first rest =>
      have hfirst := hres first
      simp only [hname first, hbyte]
      generalize s₁.graph.shape first = shape₁ at hfirst
      generalize s₂.graph.shape first = shape₂ at hfirst
      cases hfirst with
      | _ => rfl

theorem itemBytes?_eq {g₁ g₂ : Graph} (hres : ∀ id, (g₁.shape id).Resembles f (g₂.shape id))
    (items : List NodeId) : itemBytes? g₁ items = itemBytes? g₂ items := by
  have hbytes (id : NodeId) : (g₁.shape id).toByte? = (g₂.shape id).toByte? :=
    (hres id).toByte?_eq
  simp only [itemBytes?, hbytes]

/-- One raw view, and the hatch open in both scenes or in none. -/
theorem byteView?_eq (hres : ∀ id, (s₁.graph.shape id).Resembles f (s₂.graph.shape id))
    (hname : ∀ id, s₁.graph.typeName id = s₂.graph.typeName id)
    (hbyte : s₁.config.isByteElement = s₂.config.isByteElement)
    (hhatch : s₁.hatchOpen = s₂.hatchOpen) (q : Sequence) : byteView? s₁ q = byteView? s₂ q := by
  simp only [byteView?, startsWithByte_eq hres hname hbyte rfl, itemBytes?_eq hres, hhatch]

end Walk

/-! ### Kindred scenes -/

/-- **Two states side by side**, in private or not: the same but for the renaming of the path and of
the locks, at depths related by `Deep`. -/
def RenderState.Beside (f : Address → Address) (Deep : Nat → Nat → Prop) (secret : Bool)
    (st₁ st₂ : RenderState) : Prop :=
  ∃ depth, st₂ = { st₁ with path := st₁.path.map f, depth := depth, held := st₁.held.map f } ∧
    st₁.inPrivate = secret ∧ Deep st₁.depth depth

theorem RenderState.beside_start (f : Address → Address) {Deep : Nat → Nat → Prop}
    (h : Deep 0 0) : ({} : RenderState).Beside f Deep false {} :=
  ⟨0, rfl, rfl, h⟩

/-- Whether values may be asked, in private or not. -/
def Scene.mayAsk (s : Scene) (secret : Bool) : Bool :=
  !s.config.disableMethods && (!secret || s.hatchOpen)

/-- Two computations alike from states side by side, which they leave side by side, with results
related by `R`. -/
abbrev Likeness.TiedBy (L : Likeness) (f : Address → Address) (Deep : Nat → Nat → Prop)
    (secret : Bool) {α β : Type} (R : α → β → Prop) (m₁ : Render α) (m₂ : Render β) : Prop :=
  L.Ties (RenderState.Beside f Deep secret) (RenderState.Beside f Deep secret) R m₁ m₂

/-- The same with equal results. -/
abbrev Likeness.Tied (L : Likeness) (f : Address → Address) (Deep : Nat → Nat → Prop)
    (secret : Bool) {α : Type} (m₁ m₂ : Render α) : Prop :=
  L.TiedBy f Deep secret Eq m₁ m₂

/-- **Computations that are alike, as a coupling.**  Its places are privacies. -/
def Likeness.coupling (L : Likeness) (f : Address → Address) (Deep : Nat → Nat → Prop) :
    Coupling Bool where
  Rel i j R m₁ m₂ := L.Ties (RenderState.Beside f Deep i) (RenderState.Beside f Deep j) R m₁ m₂
  bind := .bind
  done := .pure rfl
  within secret hidden := secret || hidden
  secretly := by
    intro secret hidden m₁ m₂ h
    refine .get_bind ?_
    rintro st₁ _ ⟨depth, rfl, houter, -⟩
    refine .seq (.modify ?_) (.seq h (.modify ?_))
    · rintro σ₁ _ ⟨depth, rfl, -, hdeep⟩
      exact ⟨_, rfl, by simp [houter], hdeep⟩
    · rintro σ₁ _ ⟨depth, rfl, -, hdeep⟩
      exact ⟨_, rfl, houter, hdeep⟩

/-- **Two scenes that look alike.**  `f` renames the addresses of indirections, `Deep` relates the
depths of the two walks, and `Admits` bounds the nodes that are met, in private or not. -/
structure Kin (L : Likeness) (f : Address → Address) (Deep : Nat → Nat → Prop)
    (Admits : NodeId → Bool → Prop) (s₁ s₂ : Scene) : Prop where
  /-- The configurations differ at most in the unit of indentation and in the use of answers. -/
  config_eq : s₂.config = { s₁.config with
    indent := s₂.config.indent
    disableMethods := s₂.config.disableMethods
    continueOnMethod := s₂.config.continueOnMethod }
  size_eq : s₁.graph.size = s₂.graph.size
  resembles : ∀ id, (s₁.graph.shape id).Resembles f (s₂.graph.shape id)
  typeName_eq : ∀ id, s₁.graph.typeName id = s₂.graph.typeName id
  /-- A sequence is shown as the same bytes, or as no bytes. -/
  view_eq : ∀ {id q₁ q₂}, (s₁.graph.shape id).elements? = some q₁ →
    (s₂.graph.shape id).elements? = some q₂ → Walk.byteView? s₁ q₁ = Walk.byteView? s₂ q₂
  injective : Function.Injective f
  /-- Nothing is renamed, or neither guards nor the log show addresses. -/
  discreet : (∀ a, f a = a) ∨
    s₁.config.disableGuardResolution = false ∧ ∀ e₁ e₂, L.Alike [.log e₁] [.log e₂]
  deep_zero : Deep 0 0
  deep_succ : ∀ {a b}, Deep a b → s₁.config.atLimit a = false → Deep (a + 1) (b + 1)
  deep_pred : ∀ {a b}, Deep a b → Deep (a - 1) (b - 1)
  deep_limit : ∀ {a b}, Deep a b → s₁.config.atLimit a = s₁.config.atLimit b
  /-- A margin in front of a text that is not empty. -/
  alike_margin : ∀ {a b t es₁ es₂}, Deep a b → t ≠ "" → Likeness.firstText? es₁ = some t →
    Likeness.firstText? es₂ = some t → L.Alike es₁ es₂ →
    L.Alike (.write (String.join (List.replicate a s₁.config.indent)) :: es₁)
      (.write (String.join (List.replicate b s₂.config.indent)) :: es₂)
  alike_buffer : ∀ {a b} bytes, Deep a b →
    L.Alike [.write (HexDump.indented s₁.config.indent a bytes)]
      [.write (HexDump.indented s₂.config.indent b bytes)]
  admits_outlet : ∀ {id secret child hidden}, Admits id secret →
    (child, hidden) ∈ (s₁.graph.shape id).outlets → Admits child (secret || hidden)

namespace Kin

variable {L : Likeness} {f : Address → Address} {Admits : NodeId → Bool → Prop} {s₁ s₂ : Scene}

/-- Scenes under one configuration, walked at the same depths. -/
theorem of_config_eq (hconfig : s₁.config = s₂.config) (hsize : s₁.graph.size = s₂.graph.size)
    (hres : ∀ id, (s₁.graph.shape id).Resembles f (s₂.graph.shape id))
    (hname : ∀ id, s₁.graph.typeName id = s₂.graph.typeName id)
    (hview : ∀ {id q₁ q₂}, (s₁.graph.shape id).elements? = some q₁ →
      (s₂.graph.shape id).elements? = some q₂ → Walk.byteView? s₁ q₁ = Walk.byteView? s₂ q₂)
    (hf : Function.Injective f)
    (hdiscreet : (∀ a, f a = a) ∨
      s₁.config.disableGuardResolution = false ∧ ∀ e₁ e₂, L.Alike [.log e₁] [.log e₂])
    (hadmits : ∀ {id secret child hidden}, Admits id secret →
      (child, hidden) ∈ (s₁.graph.shape id).outlets → Admits child (secret || hidden)) :
    Kin L f Eq Admits s₁ s₂ where
  config_eq := by rw [hconfig]
  size_eq := hsize
  resembles := hres
  typeName_eq := hname
  view_eq := hview
  injective := hf
  discreet := hdiscreet
  deep_zero := rfl
  deep_succ h _ := congrArg (· + 1) h
  deep_pred h := congrArg (· - 1) h
  deep_limit h := congrArg _ h
  alike_margin := by
    rintro depth _ t es₁ es₂ rfl - - - halike
    rw [hconfig]
    exact L.alike_append (L.alike_write _) halike
  alike_buffer := by
    rintro depth _ bytes rfl
    rw [hconfig]
    exact L.alike_write _
  admits_outlet := hadmits

/-- Scenes whose shapes are the same. -/
theorem of_shape_eq (hconfig : s₁.config = s₂.config) (hhatch : s₁.hatchOpen = s₂.hatchOpen)
    (hsize : s₁.graph.size = s₂.graph.size)
    (hshape : ∀ id, s₁.graph.shape id = s₂.graph.shape id)
    (hname : ∀ id, s₁.graph.typeName id = s₂.graph.typeName id)
    (hadmits : ∀ {id secret child hidden}, Admits id secret →
      (child, hidden) ∈ (s₁.graph.shape id).outlets → Admits child (secret || hidden)) :
    Kin L id Eq Admits s₁ s₂ := by
  have hres (id : NodeId) : (s₁.graph.shape id).Resembles (fun a => a) (s₂.graph.shape id) := by
    rw [hshape id]
    exact .refl_of_id _
  refine .of_config_eq hconfig hsize hres hname ?_ Function.injective_id (Or.inl fun _ => rfl)
    hadmits
  intro id q₁ q₂ h₁ h₂
  obtain rfl : q₁ = q₂ := by
    rw [hshape id, h₂] at h₁
    exact (Option.some.inj h₁).symm
  exact Walk.byteView?_eq hres hname (by rw [hconfig]) hhatch q₁

/-- **Scenes that look alike do so while locks are held.** -/
protected theorem holding {Deep : Nat → Nat → Prop} (hk : Kin L f Deep Admits s₁ s₂)
    (held : List Address) : Kin L f Deep Admits (s₁.holding held) (s₂.holding (held.map f)) where
  config_eq := hk.config_eq
  size_eq := by simpa using hk.size_eq
  resembles id := by simpa using (hk.resembles id).holding hk.injective held
  typeName_eq id := by simpa using hk.typeName_eq id
  view_eq := by
    intro id q₁ q₂ h₁ h₂
    have helements (shape : Shape) (held : List Address) :
        (shape.holding held).elements? = shape.elements? := by
      cases shape with
      | _ => rfl
    simp only [Scene.graph_holding, Graph.shape_holding, helements] at h₁ h₂
    simpa using hk.view_eq h₁ h₂
  injective := hk.injective
  discreet := hk.discreet
  deep_zero := hk.deep_zero
  deep_succ := hk.deep_succ
  deep_pred := hk.deep_pred
  deep_limit := hk.deep_limit
  alike_margin := hk.alike_margin
  alike_buffer := hk.alike_buffer
  admits_outlet := by
    intro id secret child hidden hid hchild
    have houtlets (shape : Shape) : (shape.holding held).outlets = shape.outlets := by
      cases shape with
      | guarded a content lock =>
          cases content with
          | _ => rfl
      | _ => rfl
    simp only [Scene.graph_holding, Graph.shape_holding, houtlets] at hchild
    exact hk.admits_outlet hid hchild

end Kin

/-- A chain with renamed addresses. -/
def Chain.renamed (f : Address → Address) (chain : Chain) : Chain :=
  { chain with
    addresses := chain.addresses.map f
    entered := chain.entered.map f
    locks := chain.locks.map f }

/-- The end of a chain with renamed addresses. -/
def Link.renamed (f : Address → Address) : Link → Link
  | .cycle typeName isPointer a => .cycle typeName isPointer (f a)
  | link => link

/-- Two ends of chains alike: what was collected is the same up to the renaming, and a value at the
end is admitted. -/
def Chain.EndsAlike (f : Address → Address) (Admits : NodeId → Bool → Prop) (secret : Bool)
    (end₁ end₂ : Chain × Link) : Prop :=
  end₂ = (end₁.1.renamed f, end₁.2.renamed f) ∧ ∀ v, end₁.2 = .value v → Admits v secret

/-- A chain is walked before anything of it is shown. -/
theorem Chain.walk_silent (s : Scene) (n : Nat) (chain : Chain) (id : NodeId) :
    Likeness.Silent (Chain.walk s n chain id) := by
  have henter (chain : Chain) (a : Address) : Likeness.Silent (chain.enter a) := by
    intro st
    by_cases ha : a ∈ st.path
    · rw [Chain.enter_of_mem ha]
      rfl
    · rw [Chain.enter_of_not_mem ha]
      rfl
  induction n generalizing chain id with
  | zero => exact fun _ => rfl
  | succ n ih =>
      simp only [Chain.walk]
      cases (s.graph.node id).shape with
      | pointer a target =>
          cases target with
          | none => exact .pure _
          | some target =>
              refine .bind (henter chain a) fun entered => ?_
              cases entered.2 with
              | true => exact .pure _
              | false =>
                  cases Chain.behind? s.graph target with
                  | none => exact .pure _
                  | some next => exact ih _ next
      | guarded a content lock =>
          cases s.config.disableGuardResolution with
          | true => exact .pure _
          | false =>
              refine .bind (henter chain a) fun entered => ?_
              cases entered.2 with
              | true => exact .pure _
              | false =>
                  cases (Shape.guarded a content lock).acquire? with
                  | none => exact .bind (fun _ => rfl) fun _ => .pure _
                  | some target =>
                      simp only [Bool.false_eq_true, if_false]
                      cases Chain.behind? s.graph target with
                      | none => exact .pure _
                      | some next => exact ih _ next
      | _ => exact .pure _

/-- Whether a mode shows no addresses of chains. -/
def Mode.hidesAddresses (c : Config) : Mode → Bool
  | .dump => c.disablePointerAddresses
  | .compact _ details => !details

namespace Kin

variable {L : Likeness} {f : Address → Address} {Deep : Nat → Nat → Prop}
  {Admits : NodeId → Bool → Prop} {s₁ s₂ : Scene} {secret : Bool}

section Rules

variable (hk : Kin L f Deep Admits s₁ s₂)

include hk

/-! #### The settings that both scenes share -/

theorem maxDepth_eq : s₂.config.maxDepth = s₁.config.maxDepth := by rw [hk.config_eq]

theorem disableGuardResolution_eq :
    s₂.config.disableGuardResolution = s₁.config.disableGuardResolution := by rw [hk.config_eq]

theorem disablePointerAddresses_eq :
    s₂.config.disablePointerAddresses = s₁.config.disablePointerAddresses := by rw [hk.config_eq]

theorem sortKeys_eq : s₂.config.sortKeys = s₁.config.sortKeys := by rw [hk.config_eq]

theorem echoKeys_eq : s₂.config.echoKeys = s₁.config.echoKeys := by rw [hk.config_eq]

theorem lengthsOf_eq (id : NodeId) :
    Mode.lengthsOf s₁.config (s₁.graph.node id).shape =
      Mode.lengthsOf s₂.config (s₂.graph.node id).shape := by
  have hshape : (s₁.graph.node id).shape.Resembles f (s₂.graph.node id).shape := hk.resembles id
  rw [hshape.lengthsOf_eq, hk.config_eq]
  rfl

/-! #### What a mode writes around values -/

/-- A margin in front of what opens with a text. -/
theorem indent_tied {α : Type} {m₁ m₂ : Render α} (h : L.Tied f Deep secret m₁ m₂)
    (hopen : Likeness.OpenAlike (RenderState.Beside f Deep secret) m₁ m₂) :
    L.Tied f Deep secret (do Mode.indent s₁.config; m₁) (do Mode.indent s₂.config; m₂) := by
  rintro st₁ _ ⟨depth, rfl, hp, hdeep⟩
  have hindent (c : Config) (m : Render α) (st : RenderState) : (do Mode.indent c; m) st =
      if st.skipIndent then m { st with skipIndent := false }
      else ⟨.write (String.join (List.replicate st.depth c.indent)) :: (m st).effects,
        (m st).result⟩ := by
    unfold Mode.indent
    rw [bind_assoc, run_get_bind]
    cases st.skipIndent with
    | _ => rfl
  rw [hindent, hindent]
  by_cases hskip : st₁.skipIndent = true
  · rw [if_pos hskip, if_pos hskip]
    exact h _ _ ⟨depth, rfl, hp, hdeep⟩
  · rw [if_neg hskip, if_neg hskip]
    obtain ⟨halike, hrel⟩ := h _ _ ⟨depth, rfl, hp, hdeep⟩
    obtain ⟨t, hne, h₁, h₂⟩ := hopen _ _ ⟨depth, rfl, hp, hdeep⟩
    exact ⟨hk.alike_margin hdeep hne h₁ h₂ halike, hrel⟩

omit hk in
theorem setSkipType_tied (b : Bool) :
    L.Tied f Deep secret (Render.setSkipType b) (Render.setSkipType b) := by
  refine Likeness.Ties.modify ?_
  rintro st₁ _ ⟨depth, rfl, hp, hdeep⟩
  exact ⟨_, rfl, hp, hdeep⟩

omit hk in
theorem setSkipIndent_tied (b : Bool) :
    L.Tied f Deep secret (Render.setSkipIndent b) (Render.setSkipIndent b) := by
  refine Likeness.Ties.modify ?_
  rintro st₁ _ ⟨depth, rfl, hp, hdeep⟩
  exact ⟨_, rfl, hp, hdeep⟩

theorem header_tied (mode : Mode) (id : NodeId) :
    L.Tied f Deep secret (mode.header s₁ (s₁.graph.node id))
      (mode.header s₂ (s₂.graph.node id)) := by
  have hname : (s₁.graph.node id).typeName = (s₂.graph.node id).typeName := hk.typeName_eq id
  cases mode with
  | dump =>
      have hrest : L.Tied f Deep secret
          (do Render.setSkipType false
              Render.write (Mode.lengthsOf s₁.config (s₁.graph.node id).shape))
          (do Render.setSkipType false
              Render.write (Mode.lengthsOf s₂.config (s₂.graph.node id).shape)) := by
        refine .seq (setSkipType_tied false) ?_
        rw [hk.lengthsOf_eq id]
        exact .write _
      refine .get_bind ?_
      rintro st₁ _ ⟨depth, rfl, -, -⟩
      refine .ite Iff.rfl (fun _ => ?_) fun _ => hrest
      rw [hname]
      exact hk.indent_tied (.seq (.write _) hrest) (.bind_left (.write (by simp)))
  | compact types details =>
      refine .get_bind ?_
      rintro st₁ _ ⟨depth, rfl, -, -⟩
      refine .ite Iff.rfl (fun _ => ?_) fun _ => setSkipType_tied false
      refine .seq ?_ (setSkipType_tied false)
      rw [hname]
      exact .write _

theorem invalid_tied (mode : Mode) :
    L.Tied f Deep secret (mode.invalid s₁.config) (mode.invalid s₂.config) := by
  cases mode with
  | dump =>
      have hrest : L.Tied f Deep secret
          (do Render.setSkipType false; Render.write Mode.invalidMark)
          (do Render.setSkipType false; Render.write Mode.invalidMark) :=
        .seq (setSkipType_tied false) (.write _)
      refine .get_bind ?_
      rintro st₁ _ ⟨depth, rfl, -, -⟩
      refine .ite Iff.rfl (fun _ => hk.indent_tied hrest ?_) fun _ => hrest
      exact fun _ _ _ => ⟨Mode.invalidMark, by decide, rfl, rfl⟩
  | compact types details => exact .write _

theorem label_tied (mode : Mode) (name : String) :
    L.Tied f Deep secret (mode.label s₁.config name) (mode.label s₂.config name) := by
  cases mode with
  | dump =>
      exact hk.indent_tied (.seq (.write _) (setSkipIndent_tied true))
        (.bind_left (.write (by simp)))
  | compact types details => exact .ite Iff.rfl (fun _ => .write _) fun _ => .pure rfl

theorem beginNested_tied (mode : Mode) (id : NodeId) :
    L.Tied f Deep secret (mode.beginNested (s₁.graph.shape id))
      (mode.beginNested (s₂.graph.shape id)) := by
  cases mode with
  | dump => exact .pure rfl
  | compact types details =>
      refine .ite ?_ (fun _ => setSkipType_tied false) fun _ => .pure rfl
      rw [(hk.resembles id).isHolder_eq]

/-! #### Containers -/

/-- One level deeper, where the limit has not been reached. -/
theorem deeper_ties {st₁ st₂ : RenderState} (hst : st₁.Beside f Deep secret st₂)
    (hopen : s₁.config.atLimit st₁.depth = false) {inside₁ inside₂ : Render Unit}
    (h : L.Tied f Deep secret inside₁ inside₂) :
    L.Ties (fun σ₁ σ₂ => σ₁ = st₁ ∧ σ₂ = st₂) (RenderState.Beside f Deep secret) Eq
      (Mode.deeper inside₁) (Mode.deeper inside₂) := by
  refine .seq (.modify ?_) (.seq h (.modify ?_))
  · rintro _ _ ⟨rfl, rfl⟩
    obtain ⟨depth, rfl, hp, hdeep⟩ := hst
    exact ⟨depth + 1, rfl, hp, hk.deep_succ hdeep hopen⟩
  · rintro σ₁ _ ⟨depth, rfl, hp, hdeep⟩
    exact ⟨depth - 1, rfl, hp, hk.deep_pred hdeep⟩

theorem nest_tied (mode : Mode) (id : NodeId) (bracket : Mode.Bracket)
    {inside₁ inside₂ : Render Unit} (h : L.Tied f Deep secret inside₁ inside₂) :
    L.Tied f Deep secret (mode.nest s₁ id bracket inside₁)
      (mode.nest s₂ id bracket inside₂) := by
  have hlimit {st₁ st₂ : RenderState} (hst : st₁.Beside f Deep secret st₂) :
      s₂.config.atLimit st₂.depth = s₁.config.atLimit st₁.depth := by
    obtain ⟨depth, rfl, -, hdeep⟩ := hst
    rw [hk.deep_limit hdeep]
    simp only [Config.atLimit, hk.maxDepth_eq]
  have hat {st₁ st₂ : RenderState} (hst : st₁.Beside f Deep secret st₂) :
      ∀ σ₁ σ₂, σ₁ = st₁ ∧ σ₂ = st₂ → σ₁.Beside f Deep secret σ₂ := by
    rintro _ _ ⟨rfl, rfl⟩
    exact hst
  cases mode with
  | dump =>
      refine .get_bind_at fun st₁ st₂ hst => ?_
      rw [hlimit hst, hk.maxDepth_eq]
      cases hopen : s₁.config.atLimit st₁.depth with
      | true =>
          refine .seq (.emit (L.alike_log _)) (.seq (.step _ _) ?_)
          exact (Likeness.Ties.write _).weaken (hat hst)
      | false =>
          refine .seq (.step _ _) (.seq (.write _) (.seq (hk.deeper_ties hst hopen h) ?_))
          exact hk.indent_tied (.write _) (.write (by decide))
  | compact types details =>
      refine .seq (.write _) (.get_bind_at fun st₁ st₂ hst => ?_)
      rw [hlimit hst]
      cases hopen : s₁.config.atLimit st₁.depth with
      | true =>
          refine .seq (.step _ _) (.seq (.write _) ?_)
          exact (Likeness.Ties.write _).weaken (hat hst)
      | false => exact .seq (.step _ _) (.seq (hk.deeper_ties hst hopen h) (.write _))

variable {mode : Mode} {visit₁ visit₂ : Visit} {texts₁ texts₂ : Texts}

theorem nested_tied {child : NodeId}
    (h : L.Tied f Deep secret (visit₁ mode child) (visit₂ mode child)) :
    L.Tied f Deep secret (Walk.nested s₁ visit₁ mode child)
      (Walk.nested s₂ visit₂ mode child) :=
  .seq (hk.beginNested_tied mode child) h

/-- The ornaments of two scenes. -/
theorem fits : (L.coupling f Deep).Fits ⟨s₁, mode, texts₁, visit₁⟩ ⟨s₂, mode, texts₂, visit₂⟩ where
  divider _ := .write _
  terminator _ := .write _
  keyMark _ := by
    cases mode with
    | dump => exact .seq (.write _) (setSkipIndent_tied true)
    | compact types details => exact .write _
  beginPart _ := by
    cases mode with
    | dump => exact .pure rfl
    | compact types details => exact setSkipType_tied true
  label _ name := hk.label_tied mode name

theorem elements_tied {q₁ q₂ : Sequence} (hview : Walk.byteView? s₁ q₁ = Walk.byteView? s₂ q₂)
    (h : L.Tied f Deep secret (Walk.spelled s₁ visit₁ mode q₁) (Walk.spelled s₂ visit₂ mode q₂)) :
    L.Tied f Deep secret (Walk.elements s₁ visit₁ mode q₁) (Walk.elements s₂ visit₂ mode q₂) := by
  cases mode with
  | dump =>
      cases hbytes : Walk.byteView? s₁ q₁ with
      | none =>
          rw [Walk.elements_eq_spelled fun _ => hbytes,
            Walk.elements_eq_spelled fun _ => hview ▸ hbytes]
          exact h
      | some bytes =>
          rw [Walk.elements_of_view hbytes, Walk.elements_of_view (hview ▸ hbytes)]
          rintro st₁ _ ⟨depth, rfl, hp, hdeep⟩
          exact ⟨hk.alike_buffer bytes hdeep, .some ⟨rfl, _, rfl, hp, hdeep⟩⟩
  | compact types details => exact h

/-- The entries of a map in an order that is alike. -/
theorem arranged_tied {es : List Entry} {E : Entry → Entry → Prop}
    (hsort : s₁.config.sortKeys = true → ∀ held,
      L.Linked Eq (KeyOrder.sort s₁ (texts₁ held) (s₁.mayAsk secret) es)
        (KeyOrder.sort s₂ (texts₂ (held.map f)) (s₂.mayAsk secret) es))
    (h : ∀ e ∈ es, E e e) :
    L.TiedBy f Deep secret (List.Forall₂ E) (Walk.arranged s₁ texts₁ es)
      (Walk.arranged s₂ texts₂ es) := by
  unfold Walk.arranged
  rw [hk.sortKeys_eq]
  cases hs : s₁.config.sortKeys with
  | false => exact .pure (List.forall₂_same.2 h)
  | true =>
      refine .get_bind ?_
      rintro st₁ _ ⟨depth, rfl, rfl, -⟩
      have hlinked := (hsort hs st₁.held).knowing (P := fun ordered => ∀ e ∈ ordered, e ∈ es)
        fun ordered hr e he => KeyOrder.mem_of_sort hr he
      refine .lift (hlinked.imp ?_)
      rintro ordered _ ⟨rfl, hordered⟩
      exact List.forall₂_same.2 fun e he => h e (hordered e he)

omit hk in
theorem holding_tied {locks : List Address} {m₁ m₂ : Render Unit} (h : L.Tied f Deep secret m₁ m₂) :
    L.Tied f Deep secret (Render.holding locks m₁) (Render.holding (locks.map f) m₂) := by
  refine .get_bind ?_
  rintro st₁ _ ⟨depth, rfl, -, -⟩
  refine .seq (.modify ?_) (.seq h (.modify ?_))
  · rintro σ₁ _ ⟨depth, rfl, hp, hdeep⟩
    exact ⟨_, by simp, hp, hdeep⟩
  · rintro σ₁ _ ⟨depth, rfl, hp, hdeep⟩
    exact ⟨_, rfl, hp, hdeep⟩

/-! #### Chains -/

/-- A log entry that names an address. -/
theorem notice_alike (level : Level) (text : Address → String) (a : Address) :
    L.Alike [.log ⟨level, text a⟩] [.log ⟨level, text (f a)⟩] := by
  rcases hk.discreet with hf | ⟨-, hlog⟩
  · rw [hf a]
    exact L.alike_log _
  · exact hlog _ _

theorem enter_ties (chain : Chain) (a : Address) :
    L.TiedBy f Deep secret (fun x y => y = (x.1.renamed f, x.2)) (chain.enter a)
      ((chain.renamed f).enter (f a)) := by
  rintro st₁ _ ⟨depth, rfl, hp, hdeep⟩
  by_cases ha : a ∈ st₁.path
  · rw [Chain.enter_of_mem ha, Chain.enter_of_mem (List.mem_map_of_mem ha)]
    refine ⟨hk.notice_alike _ (fun a => "Cycle detected at " ++ Scalar.bareAddress a) a, ?_⟩
    exact .some ⟨by simp [Chain.renamed], _, rfl, hp, hdeep⟩
  · have hfa : f a ∉ st₁.path.map f := by
      rwa [List.mem_map_of_injective hk.injective]
    rw [Chain.enter_of_not_mem ha, Chain.enter_of_not_mem hfa]
    refine .pure ⟨by simp [Chain.renamed, Chain.extended], depth, ?_, hp, hdeep⟩
    simp [Chain.opened]

theorem behind?_eq (target : NodeId) :
    Chain.behind? s₁.graph target = Chain.behind? s₂.graph target := by
  have hres := hk.resembles target
  unfold Chain.behind?
  generalize s₁.graph.shape target = shape₁ at hres
  generalize s₂.graph.shape target = shape₂ at hres
  cases hres with
  | _ => rfl

theorem admits_behind {target next : NodeId} (h : Admits target secret)
    (hbehind : Chain.behind? s₁.graph target = some next) : Admits next secret := by
  unfold Chain.behind? at hbehind
  split at hbehind
  · next content hs =>
      subst hbehind
      have houtlet : (next, false) ∈ (s₁.graph.shape target).outlets := by simp [hs, Shape.outlets]
      simpa using hk.admits_outlet h houtlet
  · obtain rfl := Option.some.inj hbehind
    exact h

section Links

/-! One more link, given the rest of the chain. -/

variable {n : Nat}
  (hrest : ∀ chain id, Admits id secret →
    L.TiedBy f Deep secret (Chain.EndsAlike f Admits secret)
      (Chain.walk s₁ n chain id) (Chain.walk s₂ n (chain.renamed f) id))

include hrest

/-- What stands behind a link that was entered, with the locks of the link. -/
theorem beyond_ties (chain : Chain) (locks : List Address) {target : NodeId}
    (htarget : Admits target secret) :
    L.TiedBy f Deep secret (Chain.EndsAlike f Admits secret)
      (match Chain.behind? s₁.graph target with
        | none => pure (chain, .nil (s₁.graph.typeName target) false)
        | some next => Chain.walk s₁ n { chain with locks := locks ++ chain.locks } next)
      (match Chain.behind? s₂.graph target with
        | none => pure (chain.renamed f, .nil (s₂.graph.typeName target) false)
        | some next => Chain.walk s₂ n
            { chain.renamed f with locks := locks.map f ++ (chain.renamed f).locks } next) := by
  rw [← hk.behind?_eq, ← hk.typeName_eq]
  cases hbehind : Chain.behind? s₁.graph target with
  | none => exact .pure ⟨rfl, by simp⟩
  | some next =>
      have hlocks : { chain.renamed f with locks := locks.map f ++ (chain.renamed f).locks } =
          ({ chain with locks := locks ++ chain.locks } : Chain).renamed f := by
        simp [Chain.renamed]
      have hwalk := hrest { chain with locks := locks ++ chain.locks } next
        (hk.admits_behind htarget hbehind)
      rwa [← hlocks] at hwalk

theorem pointer_ties (chain : Chain) {id target : NodeId} {a : Address} (hid : Admits id secret)
    (hs₁ : s₁.graph.shape id = .pointer a (some target))
    (hs₂ : s₂.graph.shape id = .pointer (f a) (some target)) :
    L.TiedBy f Deep secret (Chain.EndsAlike f Admits secret)
      (Chain.walk s₁ (n + 1) chain id) (Chain.walk s₂ (n + 1) (chain.renamed f) id) := by
  have htarget : Admits target secret := by
    have houtlet : (target, false) ∈ (s₁.graph.shape id).outlets := by simp [hs₁, Shape.outlets]
    simpa using hk.admits_outlet hid houtlet
  simp only [Graph.shape] at hs₁ hs₂
  simp only [Chain.walk, hs₁, hs₂]
  refine .bind (hk.enter_ties chain a) ?_
  rintro ⟨chain', closed⟩ _ rfl
  cases closed with
  | true => exact .pure ⟨by rw [hk.typeName_eq]; rfl, by simp⟩
  | false => exact hk.beyond_ties hrest chain' [] htarget

theorem guarded_ties (chain : Chain) {id : NodeId} {a : Address} {content : Option NodeId}
    {lock : Lock} (hid : Admits id secret) (hs₁ : s₁.graph.shape id = .guarded a content lock)
    (hs₂ : s₂.graph.shape id = .guarded (f a) content lock) :
    L.TiedBy f Deep secret (Chain.EndsAlike f Admits secret)
      (Chain.walk s₁ (n + 1) chain id) (Chain.walk s₂ (n + 1) (chain.renamed f) id) := by
  have hname : (s₁.graph.node id).typeName = (s₂.graph.node id).typeName := hk.typeName_eq id
  have hsame : (Shape.guarded (f a) content lock).acquire? =
      (Shape.guarded a content lock).acquire? := by
    obtain ⟨exclusive, busy⟩ := lock
    cases busy with
    | _ => rfl
  have hcontent {target : NodeId}
      (h : (Shape.guarded a content lock).acquire? = some target) : Admits target secret := by
    obtain ⟨exclusive, busy⟩ := lock
    cases busy with
    | true => simp [Shape.acquire?] at h
    | false =>
        obtain rfl : content = some target := h
        have houtlet : (target, false) ∈ (s₁.graph.shape id).outlets := by
          simp [hs₁, Shape.outlets]
        simpa using hk.admits_outlet hid houtlet
  simp only [Graph.shape] at hs₁ hs₂
  simp only [Chain.walk, hs₁, hs₂]
  refine .ite (by rw [hk.disableGuardResolution_eq]) (fun _ => .pure ⟨rfl, ?_⟩) fun _ => ?_
  · rintro v hv
    obtain rfl := Link.value.inj hv
    exact hid
  · refine .bind (hk.enter_ties chain a) ?_
    rintro ⟨chain', closed⟩ _ rfl
    cases closed with
    | true => exact .pure ⟨by rw [hname]; rfl, by simp⟩
    | false =>
        simp only [Bool.false_eq_true, if_false, hsame]
        cases hacquire : (Shape.guarded a content lock).acquire? with
        | none =>
            rw [hname]
            refine .seq (.emit (hk.notice_alike _ (fun a => "Could not acquire " ++
              (s₂.graph.node id).typeName ++ " at " ++ Scalar.bareAddress a) a)) ?_
            exact .pure ⟨rfl, by simp⟩
        | some target =>
            have hholds : lock.holds (f a) = (lock.holds a).map f := by
              cases hexclusive : lock.exclusive with
              | _ => simp [Lock.holds, hexclusive]
            have hbeyond := hk.beyond_ties hrest chain' (lock.holds a) (hcontent hacquire)
            rwa [← hholds] at hbeyond

end Links

/-- **A chain in two kindred scenes**: it collects the same up to the renaming, and what it leads to
is admitted. -/
theorem chain_ties (n : Nat) (chain : Chain) (id : NodeId) (hid : Admits id secret) :
    L.TiedBy f Deep secret (Chain.EndsAlike f Admits secret)
      (Chain.walk s₁ n chain id) (Chain.walk s₂ n (chain.renamed f) id) := by
  induction n generalizing chain id with
  | zero => exact .stalled
  | succ n ih =>
      have hvalue : L.TiedBy f Deep secret (Chain.EndsAlike f Admits secret)
          (pure (chain, .value id)) (pure (chain.renamed f, .value id)) := by
        refine .pure ⟨rfl, ?_⟩
        rintro v hv
        obtain rfl := Link.value.inj hv
        exact hid
      have hname : (s₁.graph.node id).typeName = (s₂.graph.node id).typeName := hk.typeName_eq id
      have hres := hk.resembles id
      generalize hs₁ : s₁.graph.shape id = shape₁ at hres
      generalize hs₂ : s₂.graph.shape id = shape₂ at hres
      cases hres with
      | pointer a target =>
          cases target with
          | none =>
              simp only [Graph.shape] at hs₁ hs₂
              simp only [Chain.walk, hs₁, hs₂, hname]
              exact .pure ⟨rfl, by simp⟩
          | some target => exact hk.pointer_ties ih chain hid hs₁ hs₂
      | guarded a content lock => exact hk.guarded_ties ih chain hid hs₁ hs₂
      | same h =>
          simp only [Graph.shape] at hs₁ hs₂
          cases shape₁ with
          | pointer a target => simp [Shape.address?] at h
          | guarded a content lock => simp [Shape.address?] at h
          | _ =>
              simp only [Chain.walk, hs₁, hs₂]
              exact hvalue
      | _ =>
          simp only [Graph.shape] at hs₁ hs₂
          simp only [Chain.walk, hs₁, hs₂]
          exact hvalue

theorem chainType_eq (chain : Chain) (link : Link) :
    Mode.chainType s₂.graph (chain.renamed f) (link.renamed f) =
      Mode.chainType s₁.graph chain link := by
  cases link with
  | value v => simp only [Link.renamed, Mode.chainType, hk.typeName_eq, Chain.renamed]
  | _ => rfl

/-- Addresses that are shown are not renamed. -/
theorem chainHeader_tied (hmode : (∀ a, f a = a) ∨ mode.hidesAddresses s₁.config = true)
    (chain : Chain) (link : Link) :
    L.Tied f Deep secret (mode.chainHeader s₁ chain link)
      (mode.chainHeader s₂ (chain.renamed f) (link.renamed f)) := by
  have hstars :
      Mode.chainStars (chain.renamed f) (link.renamed f) = Mode.chainStars chain link := by
    cases link with
    | _ => rfl
  have haddresses (hf : ∀ a, f a = a) : (chain.renamed f).addresses = chain.addresses := by
    obtain rfl : f = id := funext hf
    simp [Chain.renamed]
  cases mode with
  | dump =>
      simp only [Mode.chainHeader, hk.chainType_eq, hk.disablePointerAddresses_eq]
      refine .seq (.write _) (.ite Iff.rfl (fun hshown => ?_) fun _ => .write _)
      rcases hmode with hf | hhides
      · rw [haddresses hf]
        exact .seq (.write _) (.write _)
      · rw [show s₁.config.disablePointerAddresses = true from hhides] at hshown
        exact absurd hshown (by simp)
  | compact types details =>
      have hrest : L.Tied f Deep secret
          (if details = true then Render.write (Mode.addresses chain.addresses) else pure ())
          (if details = true then Render.write (Mode.addresses (chain.renamed f).addresses)
            else pure ()) := by
        refine .ite Iff.rfl (fun hdetails => ?_) fun _ => .pure rfl
        rcases hmode with hf | hhides
        · rw [haddresses hf]
          exact .write _
        · simp [Mode.hidesAddresses, hdetails] at hhides
      simp only [Mode.chainHeader, hk.chainType_eq, hstars]
      refine .get_bind ?_
      rintro st₁ _ ⟨depth, rfl, -, -⟩
      exact .ite Iff.rfl (fun _ => .seq (.write _) hrest) fun _ => .seq (.write _) hrest

omit hk in
theorem chainFooter_tied : L.Tied f Deep secret mode.chainFooter mode.chainFooter := by
  cases mode with
  | dump => exact .write _
  | compact types details => exact .pure rfl

omit hk in
/-- What stands at the end of a chain. -/
theorem arrive_tied {chain : Chain} {link : Link}
    (h : ∀ v, link = .value v → L.Tied f Deep secret (visit₁ mode v) (visit₂ mode v)) :
    L.Tied f Deep secret (Walk.arrive visit₁ mode chain link)
      (Walk.arrive visit₂ mode (chain.renamed f) (link.renamed f)) := by
  have hmark (ending₁ ending₂ : Ending)
      (hsame : mode.endingMark ending₁ = mode.endingMark ending₂) :
      L.Tied f Deep secret
        (do Render.step (.ended ending₁); Render.write (mode.endingMark ending₁))
        (do Render.step (.ended ending₂); Render.write (mode.endingMark ending₂)) := by
    rw [hsame]
    exact .seq (.step _ _) (.write _)
  cases link with
  | nil typeName isPointer => exact hmark .nil .nil rfl
  | cycle typeName isPointer a =>
      refine hmark (.cycle a) (.cycle (f a)) ?_
      cases mode with
      | _ => rfl
  | unreachable typeName => exact hmark .unreachable .unreachable rfl
  | value v => exact .seq (.step _ _) (.seq (setSkipType_tied true) (holding_tied (h v rfl)))

/-- **A chain that is shown.** -/
theorem follow_tied (hmode : (∀ a, f a = a) ∨ mode.hidesAddresses s₁.config = true) {id : NodeId}
    (hid : Admits id secret)
    (h : ∀ child, Admits child secret →
      L.Tied f Deep secret (visit₁ mode child) (visit₂ mode child)) :
    L.Tied f Deep secret (Walk.follow s₁ visit₁ mode id) (Walk.follow s₂ visit₂ mode id) := by
  have hfuel : Chain.fuel s₁.graph = Chain.fuel s₂.graph := by simp only [Chain.fuel, hk.size_eq]
  have hwalk := hk.chain_ties (Chain.fuel s₁.graph) {} id hid
  nth_rewrite 2 [hfuel] at hwalk
  let side₁ : Walk.Side := ⟨s₁, mode, fun _ _ => pure "", visit₁⟩
  let side₂ : Walk.Side := ⟨s₂, mode, fun _ _ => pure "", visit₂⟩
  refine Coupling.follow_couples (C := L.coupling f Deep) (a := side₁) (b := side₂) hwalk ?_ ?_
    chainFooter_tied ?_
  · rintro ⟨chain, link⟩ _ ⟨rfl, -⟩
    exact hk.chainHeader_tied hmode chain link
  · rintro ⟨chain, link⟩ _ ⟨rfl, hvalue⟩
    exact arrive_tied fun v hv => h v (hvalue v hv)
  · rintro ⟨chain, link⟩ _ ⟨rfl, -⟩
    refine .modify ?_
    rintro st₁ _ ⟨depth, rfl, hp, hdeep⟩
    refine ⟨depth, ?_, hp, hdeep⟩
    have hleave (as path : List Address) :
        (as.map f).foldl List.erase (path.map f) = (as.foldl List.erase path).map f := by
      induction as generalizing path with
      | nil => rfl
      | cons a as ih => rw [List.map_cons, List.foldl_cons, List.foldl_cons, ← ih,
          List.map_erase hk.injective]
    simp only [RenderState.leave, Chain.renamed, hleave]

/-- A dump of a chain opens with its type. -/
theorem follow_opens {id : NodeId} (hid : Admits id secret) :
    Likeness.OpenAlike (RenderState.Beside f Deep secret) (Walk.follow s₁ visit₁ .dump id)
      (Walk.follow s₂ visit₂ .dump id) := by
  have hends (st₁ : RenderState) :
      (Chain.walk s₁ (Chain.fuel s₁.graph) {} id st₁).result.isSome = true := by
    obtain ⟨chain, link, new, hr, -⟩ :=
      Chain.walk_follows s₁ (Chain.fuel s₁.graph) {} id st₁ (Chain.room_lt_fuel _ _)
    rw [hr]
    rfl
  have hfuel : Chain.fuel s₁.graph = Chain.fuel s₂.graph := by simp only [Chain.fuel, hk.size_eq]
  unfold Walk.follow
  rw [← hfuel]
  refine .silent_bind (hk.chain_ties _ {} id hid) (Chain.walk_silent _ _ _ _)
    (Chain.walk_silent _ _ _ _) (fun st₁ _ _ => hends st₁) ?_
  rintro ⟨chain, link⟩ _ ⟨rfl, -⟩
  refine .bind_left (.bind_left ?_)
  simp only [Mode.chainHeader, hk.chainType_eq]
  exact .bind_left (.write (by simp))

omit hk in
/-- In compact mode a chain may be shown without being walked. -/
theorem beginChain_tied {shape₁ shape₂ : Shape} (hres : shape₁.Resembles f shape₂)
    {types details : Bool} :
    L.Tied f Deep secret (Mode.beginChain s₁.config shape₁ (.compact types details))
      (Mode.beginChain s₂.config shape₂ (.compact types details)) := by
  have hnil : L.Tied f Deep secret
      (do if !types || (← get).skipType then
            Render.setSkipType false
            Render.step (.ended .nil)
            Render.write Mode.nilMark
            pure false
          else pure true)
      (do if !types || (← get).skipType then
            Render.setSkipType false
            Render.step (.ended .nil)
            Render.write Mode.nilMark
            pure false
          else pure true) := by
    refine .get_bind ?_
    rintro st₁ _ ⟨depth, rfl, -, -⟩
    refine .ite Iff.rfl (fun _ => ?_) fun _ => .pure rfl
    exact .seq (setSkipType_tied false) (.seq (.step _ _) (.seq (.write _) (.pure rfl)))
  cases hres with
  | pointer a target =>
      cases target with
      | none => exact hnil
      | some target => exact .pure rfl
  | same h =>
      cases shape₁ with
      | pointer a target => simp [Shape.address?] at h
      | _ => exact .pure rfl
  | _ => exact .pure rfl

/-- **An indirection that is shown.** -/
theorem indirection_tied (hmode : (∀ a, f a = a) ∨ mode.hidesAddresses s₁.config = true)
    {id : NodeId} (hid : Admits id secret)
    (h : ∀ child, Admits child secret →
      L.Tied f Deep secret (visit₁ mode child) (visit₂ mode child)) :
    L.Tied f Deep secret (Walk.indirection s₁ visit₁ mode id)
      (Walk.indirection s₂ visit₂ mode id) := by
  have hfollow := hk.follow_tied hmode hid h
  cases mode with
  | dump =>
      simp only [Walk.indirection, Mode.beginChain, bind_assoc, pure_bind, if_true]
      exact hk.indent_tied hfollow (hk.follow_opens hid)
  | compact types details =>
      refine .bind (beginChain_tied (hk.resembles id)) ?_
      rintro walked _ rfl
      exact .ite Iff.rfl (fun _ => hfollow) fun _ => .pure rfl

end Rules

end Kin

end ValueLens
