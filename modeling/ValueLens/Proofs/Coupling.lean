/-
**One rule for two runs of a level.**

Much of what is said about walks compares two of them: a walk with itself in two modes, on two
amounts of fuel or from two states, or walks of two scenes that differ in what the walk should not
see.  Each time the argument goes level by level, and a level is put together from the same pieces.

A *coupling* is any relation of two computations that goes through sequences.  It may speak of
places, from which a computation starts and at which it ends: a frame, a privacy, or nothing at all.
The main result is the rule of a level for all couplings.  It asks how the pieces of the two levels
are related, form by form, and it is the only place that puts them together; whoever compares two
walks says what is particular about them.  A relation that a quiet computation has with itself gets
most of the pieces for nothing.

Main definitions:

* `ValueLens.Coupling` — relations of two computations that go through sequences;
* `ValueLens.Walk.Side` — what a level of the walk is given;
* `ValueLens.Coupling.Fits` — two sides whose ornaments are coupled;
* `ValueLens.Coupling.Meets` — two forms whose pieces are coupled;
* `ValueLens.Coupling.Calm` — couplings of quiet computations with themselves.

Main results:

* `ValueLens.Coupling.level_couples` — **the rule of a level**;
* `ValueLens.Coupling.follow_couples` — the rule of a chain;
* `ValueLens.Coupling.Calm.fits`, `ValueLens.Coupling.Calm.nest`, `ValueLens.Coupling.Calm.front` —
  pieces of couplings of quiet computations.
-/
import Mathlib.Data.List.Forall2
import ValueLens.Proofs.Form
import ValueLens.Proofs.Run

set_option relaxedAutoImplicit false
set_option autoImplicit false

namespace ValueLens

open Render

/-! ### Couplings -/

/-- **A relation of two computations that goes through sequences.**  It speaks of the places at
which computations start and end, and of their results. -/
structure Coupling (ι : Type) where
  Rel : {α : Type} → ι → ι → (α → α → Prop) → Render α → Render α → Prop
  bind : ∀ {α β : Type} {i j k : ι} {R : α → α → Prop} {S : β → β → Prop} {m₁ m₂ : Render α}
    {k₁ k₂ : α → Render β}, Rel i j R m₁ m₂ → (∀ x y, R x y → Rel j k S (k₁ x) (k₂ y)) →
    Rel i k S (m₁ >>= k₁) (m₂ >>= k₂)
  done : ∀ {i : ι}, Rel i i Eq (pure () : Render Unit) (pure ())
  /-- The place inside of a field, which may be private. -/
  within : ι → Bool → ι
  secretly : ∀ {i : ι} {hidden : Bool} {m₁ m₂ : Render Unit},
    Rel (within i hidden) (within i hidden) Eq m₁ m₂ →
    Rel i i Eq (Render.secretly hidden m₁) (Render.secretly hidden m₂)

namespace Coupling

variable {ι : Type} {C : Coupling ι} {i j k : ι}

/-- Two computations without a result, from a place back to it. -/
abbrev Couples (C : Coupling ι) (i : ι) (m₁ m₂ : Render Unit) : Prop := C.Rel i i Eq m₁ m₂

/-- A computation without a result in front of others. -/
theorem seq {α : Type} {S : α → α → Prop} {m₁ m₂ : Render Unit} {k₁ k₂ : Unit → Render α}
    (hm : C.Rel i j Eq m₁ m₂) (hk : C.Rel j k S (k₁ ()) (k₂ ())) :
    C.Rel i k S (m₁ >>= k₁) (m₂ >>= k₂) :=
  C.bind hm fun _ _ _ => hk

end Coupling

/-! ### The pieces of a level -/

namespace Walk

/-- **What a level of the walk is given.** -/
structure Side where
  scene : Scene
  mode : Mode
  texts : Texts
  visit : Visit

namespace Side

variable (a : Side)

abbrev level (id : NodeId) : Render Unit := Walk.level a.scene a.texts a.visit a.mode id

abbrev front (id : NodeId) : Render Bool := Walk.front a.scene a.mode id

abbrev below (id : NodeId) : Render Unit := a.visit a.mode id

abbrev nested (id : NodeId) : Render Unit := Walk.nested a.scene a.visit a.mode id

abbrev nest (id : NodeId) (bracket : Mode.Bracket) (inside : Render Unit) : Render Unit :=
  a.mode.nest a.scene id bracket inside

abbrev spelled (q : Sequence) : Render Unit := Walk.spelled a.scene a.visit a.mode q

abbrev elements (q : Sequence) : Render Unit := Walk.elements a.scene a.visit a.mode q

abbrev arranged (es : List Entry) : Render (List Entry) := Walk.arranged a.scene a.texts es

abbrev entries (es : List Entry) : Render Unit := Walk.entries a.scene a.texts a.visit a.mode es

abbrev fields (fds : List Field) : Render Unit :=
  a.mode.list (Walk.field a.scene a.visit a.mode) fds

/-- What a level shows of an invalid value. -/
abbrev invalid (id : NodeId) : Render Unit := do
  Render.step (.visited id .notAsked)
  a.mode.invalid a.scene.config

abbrev indirection (id : NodeId) : Render Unit := Walk.indirection a.scene a.visit a.mode id

end Side

end Walk

namespace Coupling

open Walk

variable {ι : Type} {C : Coupling ι} {a b : Side} {i j : ι}

/-- **Two sides whose ornaments are coupled**, wherever they stand. -/
structure Fits (C : Coupling ι) (a b : Side) : Prop where
  divider : ∀ i, C.Couples i (Render.write a.mode.divider) (Render.write b.mode.divider)
  terminator : ∀ i, C.Couples i (Render.write a.mode.terminator) (Render.write b.mode.terminator)
  keyMark : ∀ i, C.Couples i a.mode.keyMark b.mode.keyMark
  beginPart : ∀ i, C.Couples i a.mode.beginPart b.mode.beginPart
  label : ∀ i name,
    C.Couples i (a.mode.label a.scene.config name) (b.mode.label b.scene.config name)

/-- Values that are coupled where they stand in a container. -/
abbrev Nested (C : Coupling ι) (a b : Side) (i : ι) (id₁ id₂ : NodeId) : Prop :=
  C.Couples i (a.nested id₁) (b.nested id₂)

/-- Entries whose keys are coupled, and their values. -/
abbrev Entered (C : Coupling ι) (a b : Side) (i : ι) (e₁ e₂ : Entry) : Prop :=
  C.Nested a b i e₁.key e₂.key ∧ C.Nested a b i e₁.value e₂.value

/-- Fields of one name and one visibility, whose values are coupled. -/
structure Labelled (C : Coupling ι) (a b : Side) (i : ι) (fd₁ fd₂ : Field) : Prop where
  name : fd₁.name = fd₂.name
  visibility : fd₁.visibility = fd₂.visibility
  value : C.Nested a b (C.within i (fd₁.visibility == .internal)) fd₁.value fd₂.value

/-- **Two forms whose pieces are coupled.**  A container is coupled with another if its parts are
coupled one by one, and if it may be concluded from its contents. -/
inductive Meets (C : Coupling ι) (a b : Side) (i : ι) (id₁ id₂ : NodeId) : Form → Form → Prop
  | held {c₁ c₂ : NodeId} (content : C.Couples i (a.below c₁) (b.below c₂)) :
      Meets C a b i id₁ id₂ (.held c₁) (.held c₂)
  | invalid (mark : C.Couples i (a.invalid id₁) (b.invalid id₂)) :
      Meets C a b i id₁ id₂ .invalid .invalid
  | chain (links : C.Couples i (a.indirection id₁) (b.indirection id₂)) :
      Meets C a b i id₁ id₂ .chain .chain
  | leaf {t₁ t₂ : Mode → String}
      (text : C.Couples i (Render.write (t₁ a.mode)) (Render.write (t₂ b.mode))) :
      Meets C a b i id₁ id₂ (.leaf t₁) (.leaf t₂)
  | sequence (j : ι) {q₁ q₂ : Sequence}
      (items : List.Forall₂ (C.Nested a b j) q₁.items q₂.items)
      (nest : C.Couples j (a.spelled q₁) (b.spelled q₂) →
        C.Couples i (a.nest id₁ .sequence (a.elements q₁)) (b.nest id₂ .sequence (b.elements q₂))) :
      Meets C a b i id₁ id₂ (.sequence q₁) (.sequence q₂)
  | map (j : ι) {es₁ es₂ : List Entry}
      (order : C.Rel j j (List.Forall₂ (C.Entered a b j)) (a.arranged es₁) (b.arranged es₂))
      (nest : C.Couples j (a.entries es₁) (b.entries es₂) →
        C.Couples i (a.nest id₁ .map (a.entries es₁)) (b.nest id₂ .map (b.entries es₂))) :
      Meets C a b i id₁ id₂ (.map es₁) (.map es₂)
  | record (j : ι) {fds₁ fds₂ : List Field}
      (fields : List.Forall₂ (C.Labelled a b j) fds₁ fds₂)
      (nest : C.Couples j (a.fields fds₁) (b.fields fds₂) →
        C.Couples i (a.nest id₁ .record (a.fields fds₁)) (b.nest id₂ .record (b.fields fds₂))) :
      Meets C a b i id₁ id₂ (.record fds₁) (.record fds₂)

/-! ### The rule of a level -/

namespace Fits

variable (fits : C.Fits a b)

include fits

/-- The parts of a container, one by one. -/
theorem list_couples {α : Type} {P : α → α → Prop} {part₁ part₂ : α → Render Unit}
    (h : ∀ x y, P x y → C.Couples j (part₁ x) (part₂ y)) {xs ys : List α}
    (hall : List.Forall₂ P xs ys) :
    C.Couples j (a.mode.list part₁ xs) (b.mode.list part₂ ys) := by
  induction hall with
  | nil => exact C.done
  | cons hxy hrest ih =>
      cases hrest with
      | nil => exact seq (h _ _ hxy) (fits.terminator j)
      | cons _ _ => exact seq (h _ _ hxy) (seq (fits.divider j) ih)

theorem part_couples {c₁ c₂ : NodeId} (h : C.Nested a b j c₁ c₂) :
    C.Couples j (part a.scene a.visit a.mode c₁) (part b.scene b.visit b.mode c₂) :=
  seq (fits.beginPart j) h

theorem entry_couples {e₁ e₂ : Entry} (h : C.Entered a b j e₁ e₂) :
    C.Couples j (entry a.scene a.visit a.mode e₁) (entry b.scene b.visit b.mode e₂) :=
  seq (fits.part_couples h.1) (seq (fits.keyMark j) (fits.part_couples h.2))

theorem field_couples {fd₁ fd₂ : Field} (h : C.Labelled a b j fd₁ fd₂) :
    C.Couples j (field a.scene a.visit a.mode fd₁) (field b.scene b.visit b.mode fd₂) := by
  have hlabel := fits.label j fd₁.name
  have hvalue := C.secretly h.value
  rw [h.name] at hlabel
  unfold field
  rw [← h.visibility, h.name]
  exact seq hlabel hvalue

theorem spelled_couples {q₁ q₂ : Sequence} (h : List.Forall₂ (C.Nested a b j) q₁.items q₂.items) :
    C.Couples j (a.spelled q₁) (b.spelled q₂) :=
  fits.list_couples (P := C.Nested a b j) (fun _ _ hpart => fits.part_couples hpart) h

theorem entries_couples {es₁ es₂ : List Entry}
    (h : C.Rel j j (List.Forall₂ (C.Entered a b j)) (a.arranged es₁) (b.arranged es₂)) :
    C.Couples j (a.entries es₁) (b.entries es₂) :=
  C.bind h fun _ _ hall =>
    fits.list_couples (P := C.Entered a b j) (fun _ _ hentry => fits.entry_couples hentry) hall

/-- Entries that come in the same order. -/
theorem ordered_couples {es es₁ es₂ : List Entry}
    (h : C.Rel j j (fun x y => x = y ∧ ∀ e ∈ x, e ∈ es) (a.arranged es₁) (b.arranged es₂))
    (hentry : ∀ e ∈ es, C.Entered a b j e e) : C.Couples j (a.entries es₁) (b.entries es₂) := by
  refine C.bind h ?_
  rintro ordered _ ⟨rfl, hin⟩
  exact fits.list_couples (P := C.Entered a b j) (fun _ _ hentry => fits.entry_couples hentry)
    (List.forall₂_same.2 fun e he => hentry e (hin e he))

theorem fields_couples {fds₁ fds₂ : List Field}
    (h : List.Forall₂ (C.Labelled a b j) fds₁ fds₂) :
    C.Couples j (a.fields fds₁) (b.fields fds₂) :=
  fits.list_couples (fun _ _ hfield => fits.field_couples hfield) h

end Fits

/-- What is shown unless the front stands in for it. -/
theorem fronted_couples {id₁ id₂ : NodeId} {m₁ m₂ : Render Unit}
    (hfront : C.Rel i i Eq (a.front id₁) (b.front id₂)) (h : C.Couples i m₁ m₂) :
    C.Couples i (fronted a.scene a.mode id₁ m₁) (fronted b.scene b.mode id₂ m₂) := by
  refine C.bind hfront ?_
  rintro standsIn _ rfl
  cases standsIn with
  | true => exact C.done
  | false => exact h

/-- **The rule of a level**: two levels are coupled if their ornaments are, the fronts of their
values and the pieces of their forms. -/
theorem level_couples (fits : C.Fits a b) {id₁ id₂ : NodeId}
    (hfront : C.Rel i i Eq (a.front id₁) (b.front id₂))
    (h : C.Meets a b i id₁ id₂ (form a.scene id₁) (form b.scene id₂)) :
    C.Couples i (a.level id₁) (b.level id₂) := by
  rw [Side.level, Side.level, level_eq_shown, level_eq_shown]
  generalize form a.scene id₁ = form₁ at h
  generalize form b.scene id₂ = form₂ at h
  cases h with
  | held content => exact content
  | invalid mark => exact mark
  | chain links => exact links
  | leaf text => exact fronted_couples hfront text
  | sequence j items nest => exact fronted_couples hfront (nest (fits.spelled_couples items))
  | map j order nest => exact fronted_couples hfront (nest (fits.entries_couples order))
  | record j fields nest => exact fronted_couples hfront (nest (fits.fields_couples fields))

/-! ### The rule of a chain -/

/-- **The rule of a chain**: two chains are coupled if their walks are, and what is shown behind
each pair of outcomes. -/
theorem follow_couples {R : Chain × Link → Chain × Link → Prop} {id₁ id₂ : NodeId}
    (hwalk : C.Rel i j R (Chain.walk a.scene (Chain.fuel a.scene.graph) {} id₁)
      (Chain.walk b.scene (Chain.fuel b.scene.graph) {} id₂))
    (hheader : ∀ p q, R p q → C.Couples j (a.mode.chainHeader a.scene p.1 p.2)
      (b.mode.chainHeader b.scene q.1 q.2))
    (harrive : ∀ p q, R p q → C.Couples j (arrive a.visit a.mode p.1 p.2)
      (arrive b.visit b.mode q.1 q.2))
    (hfooter : C.Couples j a.mode.chainFooter b.mode.chainFooter)
    (hleave : ∀ p q, R p q → C.Rel j i Eq (modify fun st => st.leave p.1.entered : Render Unit)
      (modify fun st => st.leave q.1.entered)) :
    C.Couples i (follow a.scene a.visit a.mode id₁) (follow b.scene b.visit b.mode id₂) := by
  refine C.bind hwalk fun p q hpq => ?_
  refine seq ?_ (hleave p q hpq)
  rw [finish_eq_arrive, finish_eq_arrive]
  exact seq (hheader p q hpq) (seq (harrive p q hpq) hfooter)

end Coupling

/-! ### Quiet parts -/

namespace Mode

theorem quiet_indent (c : Config) : Quiet (indent c) := by
  intro st
  unfold indent
  rw [run_get_bind]
  split
  · exact ⟨by simp, (), _, rfl, rfl⟩
  · exact Quiet.write _ st

theorem quiet_header (s : Scene) (n : Node) (mode : Mode) : Quiet (header s n mode) := by
  cases mode with
  | dump =>
      refine Quiet.bind Quiet.get fun st => ?_
      have hrest : Quiet (do
          Render.setSkipType false
          Render.write (lengthsOf s.config n.shape)) :=
        Quiet.bind (Quiet.setSkipType _) fun _ => Quiet.write _
      refine Quiet.ite ?_ hrest
      exact Quiet.bind (quiet_indent _) fun _ => Quiet.bind (Quiet.write _) fun _ => hrest
  | compact types details =>
      refine Quiet.bind Quiet.get fun st => ?_
      refine Quiet.ite ?_ (Quiet.setSkipType _)
      exact Quiet.bind (Quiet.write _) fun _ => Quiet.setSkipType _

theorem quiet_invalid (c : Config) (mode : Mode) : Quiet (invalid c mode) := by
  cases mode with
  | dump =>
      refine Quiet.bind Quiet.get fun st => ?_
      have hrest : Quiet (do
          Render.setSkipType false
          Render.write invalidMark) :=
        Quiet.bind (Quiet.setSkipType _) fun _ => Quiet.write _
      refine Quiet.ite ?_ hrest
      exact Quiet.bind (quiet_indent _) fun _ => hrest
  | compact types details => exact Quiet.write _

theorem quiet_label (c : Config) (name : String) (mode : Mode) : Quiet (label c name mode) := by
  cases mode with
  | dump =>
      refine Quiet.bind (quiet_indent _) fun _ => ?_
      exact Quiet.bind (Quiet.write _) fun _ => Quiet.setSkipIndent _
  | compact types details => exact Quiet.ite (Quiet.write _) (Quiet.pure _)

theorem quiet_keyMark (mode : Mode) : Quiet (keyMark mode) := by
  cases mode with
  | dump => exact Quiet.bind (Quiet.write _) fun _ => Quiet.setSkipIndent _
  | compact types details => exact Quiet.write _

theorem quiet_beginPart (mode : Mode) : Quiet (beginPart mode) := by
  cases mode with
  | dump => exact Quiet.pure _
  | compact types details => exact Quiet.setSkipType _

theorem quiet_beginNested (shape : Shape) (mode : Mode) : Quiet (beginNested shape mode) := by
  cases mode with
  | dump => exact Quiet.pure _
  | compact types details => exact Quiet.ite (Quiet.setSkipType _) (Quiet.pure _)

theorem quiet_chainHeader (s : Scene) (chain : Chain) (link : Link) (mode : Mode) :
    Quiet (chainHeader s chain link mode) := by
  cases mode with
  | dump =>
      refine Quiet.bind (Quiet.write _) fun _ => ?_
      refine Quiet.ite ?_ (Quiet.write _)
      exact Quiet.bind (Quiet.write _) fun _ => Quiet.write _
  | compact types details =>
      refine Quiet.bind Quiet.get fun st => ?_
      have hrest : Quiet (if details = true then Render.write (addresses chain.addresses)
          else pure ()) :=
        Quiet.ite (Quiet.write _) (Quiet.pure _)
      refine Quiet.ite ?_ ?_
      · exact Quiet.bind (Quiet.write _) fun _ => hrest
      · exact Quiet.bind (Quiet.write _) fun _ => hrest

theorem quiet_chainFooter (mode : Mode) : Quiet (chainFooter mode) := by
  cases mode with
  | dump => exact Quiet.write _
  | compact types details => exact Quiet.pure _

end Mode

/-- Asking a node for its description comes to an end and only logs. -/
theorem Node.describe_quiet (n : Node) :
    (∀ e ∈ n.describe.effects, e.event?.isSome) ∧ n.describe.result = some n.capability := by
  cases h : n.capability with
  | panicked message =>
      simp only [describe, h]
      exact ⟨by simp [Trace.log, Trace.emit, Bind.bind, Trace.bind, Effect.event?], rfl⟩
  | _ => simp [describe, h]

theorem Node.consult_quiet (c : Config) (n : Node) :
    (∀ e ∈ (n.consult c).effects, e.step? = none) ∧ (n.consult c).result.isSome := by
  obtain ⟨hlogs, hr⟩ := n.describe_quiet
  have he : ∀ e ∈ n.describe.effects, e.step? = none :=
    fun e hm => Effect.step?_eq_none (hlogs e hm)
  have hdescription (answer : Answer) (t : String) :
      (∀ e ∈ (consult.description c answer t).effects, e.step? = none) ∧
        (consult.description c answer t).result.isSome := by
    unfold consult.description
    split
    · exact ⟨by simp [Trace.write, Trace.emit, Bind.bind, Trace.bind, Effect.step?], rfl⟩
    · exact ⟨by simp [Trace.write, Trace.emit, Bind.bind, Trace.bind, Effect.step?], rfl⟩
  unfold consult
  rw [Trace.bind_of_some hr]
  cases n.capability with
  | absent => exact ⟨by simpa using he, rfl⟩
  | panicked message =>
      refine ⟨?_, rfl⟩
      simpa [Trace.write, Trace.emit, Bind.bind, Trace.bind, or_imp, forall_and, Effect.step?]
        using he
  | text t =>
      refine ⟨?_, (hdescription .text t).2⟩
      simpa [or_imp, forall_and] using ⟨he, (hdescription .text t).1⟩
  | error t =>
      refine ⟨?_, (hdescription .error t).2⟩
      simpa [or_imp, forall_and] using ⟨he, (hdescription .error t).1⟩

theorem Walk.quiet_ask (s : Scene) (n : Node) : Quiet (ask s n) := by
  refine Quiet.bind Quiet.get fun st => Quiet.ite ?_ (Quiet.pure _)
  obtain ⟨he, hr⟩ := n.consult_quiet s.config
  exact Quiet.lift he hr

/-! ### Couplings of quiet computations -/

/-- What is written around values depends on the unit of indentation alone. -/
theorem Mode.indent_congr {c₁ c₂ : Config} (h : c₁.indent = c₂.indent) : indent c₁ = indent c₂ := by
  simp only [indent, h]

/-- **A coupling of quiet computations with themselves.** -/
structure Coupling.Calm {ι : Type} (C : Coupling ι) : Prop where
  quiet : ∀ {α : Type} {m : Render α} (i : ι), Quiet m → C.Rel i i Eq m m

namespace Coupling.Calm

open Walk

variable {ι : Type} {C : Coupling ι} {i j : ι} (calm : C.Calm)

include calm

theorem write (t : String) : C.Couples i (Render.write t) (Render.write t) :=
  calm.quiet i (Quiet.write t)

/-- A quiet computation in front of others. -/
theorem quiet_bind {α β : Type} {S : β → β → Prop} {m : Render α} {k₁ k₂ : α → Render β}
    (hm : Quiet m) (hk : ∀ x, C.Rel i j S (k₁ x) (k₂ x)) : C.Rel i j S (m >>= k₁) (m >>= k₂) := by
  refine C.bind (calm.quiet i hm) ?_
  rintro x _ rfl
  exact hk x

/-- What is between brackets, for two values with the same layout. -/
theorem nest {s₁ s₂ : Scene} {id₁ id₂ : NodeId} {bracket : Mode.Bracket}
    {inside₁ inside₂ : Render Unit} (hindent : s₁.config.indent = s₂.config.indent)
    (hlimit : s₁.config.maxDepth = s₂.config.maxDepth)
    (hcut : C.Couples i (Render.step (.cut id₁)) (Render.step (.cut id₂)))
    (hentered : C.Couples i (Render.step (.entered id₁)) (Render.step (.entered id₂)))
    (hinside : C.Couples i (Mode.deeper inside₁) (Mode.deeper inside₂)) (mode : Mode) :
    C.Couples i (mode.nest s₁ id₁ bracket inside₁) (mode.nest s₂ id₂ bracket inside₂) := by
  have hat (depth : Nat) : s₁.config.atLimit depth = s₂.config.atLimit depth := by
    simp only [Config.atLimit, hlimit]
  cases mode with
  | dump =>
      simp only [Mode.nest, hat, hlimit, Mode.indent_congr hindent]
      refine calm.quiet_bind Quiet.get fun st => ?_
      split
      · refine calm.quiet_bind (Quiet.log _ _) fun _ => ?_
        exact seq hcut (calm.write _)
      · refine seq hentered (calm.quiet_bind (Quiet.write _) fun _ => seq hinside ?_)
        exact calm.quiet i (Quiet.bind (Mode.quiet_indent _) fun _ => Quiet.write _)
  | compact types details =>
      simp only [Mode.nest, hat]
      refine calm.quiet_bind (Quiet.write _) fun _ => calm.quiet_bind Quiet.get fun st => ?_
      split
      · refine seq hcut ?_
        exact calm.quiet i (Quiet.bind (Quiet.write _) fun _ => Quiet.write _)
      · exact seq hentered (seq hinside (calm.write _))

variable {a b : Side} (hmode : a.mode = b.mode)
  (hindent : a.scene.config.indent = b.scene.config.indent)

include hmode

/-- Ornaments are quiet. -/
theorem fits (hindent : a.scene.config.indent = b.scene.config.indent) : C.Fits a b where
  divider i := by
    rw [hmode]
    exact calm.write _
  terminator i := by
    rw [hmode]
    exact calm.write _
  keyMark i := by
    rw [hmode]
    exact calm.quiet i (Mode.quiet_keyMark _)
  beginPart i := by
    rw [hmode]
    exact calm.quiet i (Mode.quiet_beginPart _)
  label i name := by
    have hlabel : a.mode.label a.scene.config name = b.mode.label b.scene.config name := by
      rw [hmode]
      cases b.mode with
      | dump => simp only [Mode.label, Mode.indent_congr hindent]
      | compact types details => rfl
    rw [hlabel]
    exact calm.quiet i (Mode.quiet_label _ _ _)

theorem nested {c₁ c₂ : NodeId}
    (hholder : (a.scene.graph.shape c₁).isHolder = (b.scene.graph.shape c₂).isHolder)
    (h : C.Couples i (a.below c₁) (b.below c₂)) : C.Nested a b i c₁ c₂ := by
  have hbegin : a.mode.beginNested (a.scene.graph.shape c₁) =
      b.mode.beginNested (b.scene.graph.shape c₂) := by
    rw [hmode]
    cases b.mode with
    | dump => rfl
    | compact types details => simp only [Mode.beginNested, hholder]
  unfold Nested Side.nested Walk.nested
  rw [hbegin]
  exact calm.quiet_bind (Mode.quiet_beginNested _ _) fun _ => h

/-- The front of two values with the same header and the same answer. -/
theorem front {id₁ id₂ : NodeId}
    (hheader : b.mode.header a.scene (a.scene.graph.node id₁) =
      b.mode.header b.scene (b.scene.graph.node id₂))
    (hask : ask a.scene (a.scene.graph.node id₁) = ask b.scene (b.scene.graph.node id₂))
    (hvisited : ∀ answer, C.Couples i (Render.step (.visited id₁ answer))
      (Render.step (.visited id₂ answer))) :
    C.Rel i i Eq (a.front id₁) (b.front id₂) := by
  unfold Side.front Walk.front
  rw [hmode, hheader, hask]
  refine calm.quiet_bind (Mode.quiet_header _ _ _) fun _ => ?_
  refine calm.quiet_bind (quiet_ask _ _) fun answer => ?_
  exact seq (hvisited answer.1) (calm.quiet i (Quiet.pure _))

include hindent

/-- The contents of two sequences with the same bytes. -/
theorem elements {q₁ q₂ : Sequence} (hview : byteView? a.scene q₁ = byteView? b.scene q₂)
    (h : C.Couples i (a.spelled q₁) (b.spelled q₂)) :
    C.Couples i (a.elements q₁) (b.elements q₂) := by
  unfold Side.elements Side.spelled at *
  rw [hmode] at h ⊢
  cases hbytes : byteView? b.scene q₂ with
  | none =>
      rw [elements_eq_spelled fun _ => hview.trans hbytes, elements_eq_spelled fun _ => hbytes]
      exact h
  | some bytes =>
      cases hm : b.mode with
      | compact types details =>
          rw [elements_eq_spelled (by simp), elements_eq_spelled (by simp), ← hm]
          exact h
      | dump =>
          rw [elements_of_view (hview.trans hbytes), elements_of_view hbytes, hindent]
          exact calm.quiet i (Quiet.bind Quiet.get fun st => Quiet.write _)

/-- Two indirections of one shape. -/
theorem indirection {id₁ id₂ : NodeId}
    (hshape : a.scene.graph.shape id₁ = b.scene.graph.shape id₂)
    (hnil : C.Couples i (Render.step (.ended .nil)) (Render.step (.ended .nil)))
    (h : C.Couples i (follow a.scene a.visit a.mode id₁) (follow b.scene b.visit b.mode id₂)) :
    C.Couples i (a.indirection id₁) (b.indirection id₂) := by
  have hbegin : C.Rel i i Eq (a.mode.beginChain a.scene.config (a.scene.graph.shape id₁))
      (b.mode.beginChain b.scene.config (b.scene.graph.shape id₂)) := by
    rw [hmode, hshape]
    cases b.mode with
    | dump =>
        simp only [Mode.beginChain, Mode.indent_congr hindent]
        exact calm.quiet i (Quiet.bind (Mode.quiet_indent _) fun _ => Quiet.pure _)
    | compact types details =>
        simp only [Mode.beginChain]
        split
        · refine calm.quiet_bind Quiet.get fun st => ?_
          split
          · refine calm.quiet_bind (Quiet.setSkipType _) fun _ => seq hnil ?_
            exact calm.quiet i (Quiet.bind (Quiet.write _) fun _ => Quiet.pure _)
          · exact calm.quiet i (Quiet.pure _)
        · exact calm.quiet i (Quiet.pure _)
  refine C.bind hbegin ?_
  rintro walked _ rfl
  cases walked with
  | true => exact h
  | false => exact C.done

end Coupling.Calm

end ValueLens
