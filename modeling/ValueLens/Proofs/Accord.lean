/-
**Two walks in lockstep.**

One graph can be walked twice: in two modes, from two states that differ in their suppression flags,
or on two amounts of fuel.  Both walks then take their decisions from the same things, the graph and
the frame of the state, and what they do can be compared piece by piece.

An *accord* says what is asked of two such runs: how their states are related, at least by the same
frame; how their effects are related; and when the first run is excused, after which nothing more is
asked.  A pair of modes *fits* an accord if what the modes themselves contribute meets it: the
ornaments written around values, the brackets of containers, the contents of sequences and the way
into a chain.  The main result is the rule of a level in lockstep: if two modes fit an accord and
what is below meets it, so does the level.

Main definitions:

* `ValueLens.Accord` — what is asked of two runs in lockstep;
* `ValueLens.Accord.sameEffects` — accords that ask for the same effects;
* `ValueLens.Accord.Linked`, `ValueLens.Accord.Meets` — two traces and two computations that meet
  an accord;
* `ValueLens.Mode.Ornament` — what a mode writes around values;
* `ValueLens.Accord.Fits` — two modes that fit an accord;
* `ValueLens.Accord.Strict` — accords that ask that nothing differs.

Main results:

* `ValueLens.Accord.Meets.bind` — accords go through sequences;
* `ValueLens.Accord.Fits.level_meets` — **the rule of a level in lockstep**.
-/
import ValueLens.Proofs.Level

set_option relaxedAutoImplicit false
set_option autoImplicit false

namespace ValueLens

open Render

/-! ### Accords -/

/-- **What is asked of two runs in lockstep.** -/
structure Accord where
  /-- How the states of the two runs are related. -/
  Near : RenderState → RenderState → Prop
  /-- How their effects are related. -/
  Alike : List Effect → List Effect → Prop
  /-- Nothing is asked if the first run has these effects, and has come to an end or not. -/
  Excused : List Effect → Bool → Prop
  near_frame : ∀ {a b}, Near a b → a.frame = b.frame
  /-- A change that takes its frame from the frame alone keeps states related. -/
  near_change : ∀ {a b} {change : RenderState → RenderState}, Near a b →
    (∀ a b, a.frame = b.frame → (change a).frame = (change b).frame) → Near (change a) (change b)
  alike_append : ∀ {es₁ es₂ fs₁ fs₂}, Alike es₁ es₂ → Alike fs₁ fs₂ →
    Alike (es₁ ++ fs₁) (es₂ ++ fs₂)
  alike_stepless : ∀ {es}, (∀ e ∈ es, e.step? = none) → Alike es es
  /-- The depth limit may be announced in one run and not in the other. -/
  alike_step : ∀ {e}, (∀ id, e ≠ .cut id) → Alike [.step e] [.step e]
  excused_append_left : ∀ {es fs ended}, Excused es true → Excused (es ++ fs) ended
  excused_append_right : ∀ {es fs ended}, Excused fs ended → Excused (es ++ fs) ended

namespace Accord

variable {A : Accord} {α β γ δ : Type}

theorem alike_nil : A.Alike [] [] := A.alike_stepless (by simp)

theorem same_append {es₁ es₂ fs₁ fs₂ : List Effect} (h : es₁ = es₂) (h' : fs₁ = fs₂) :
    es₁ ++ fs₁ = es₂ ++ fs₂ := by
  rw [h, h']

/-- **Accords that ask for the same effects.** -/
def sameEffects (Near : RenderState → RenderState → Prop) (Excused : List Effect → Bool → Prop)
    (near_frame : ∀ {a b}, Near a b → a.frame = b.frame)
    (near_change : ∀ {a b} {change : RenderState → RenderState}, Near a b →
      (∀ a b, a.frame = b.frame → (change a).frame = (change b).frame) →
      Near (change a) (change b))
    (excused_append_left : ∀ {es fs ended}, Excused es true → Excused (es ++ fs) ended)
    (excused_append_right : ∀ {es fs ended}, Excused fs ended → Excused (es ++ fs) ended) :
    Accord where
  Near := Near
  Alike es₁ es₂ := es₁ = es₂
  Excused := Excused
  near_frame := near_frame
  near_change := near_change
  alike_append h h' := same_append h h'
  alike_stepless _ := rfl
  alike_step _ := rfl
  excused_append_left := excused_append_left
  excused_append_right := excused_append_right

/-- Two traces that meet an accord, with results related by `R`. -/
def Linked (A : Accord) (R : α → β → Prop) (t₁ : Trace α) (t₂ : Trace β) : Prop :=
  A.Excused t₁.effects t₁.result.isSome ∨
    A.Alike t₁.effects t₂.effects ∧ Option.Rel R t₁.result t₂.result

namespace Linked

variable {R : α → β → Prop} {S : γ → δ → Prop}

protected theorem pure {a : α} {b : β} (h : R a b) : A.Linked R (pure a) (pure b) :=
  Or.inr ⟨alike_nil, .some h⟩

/-- A trace without steps meets every accord with itself. -/
theorem refl {t : Trace α} (h : ∀ e ∈ t.effects, e.step? = none) : A.Linked Eq t t := by
  refine Or.inr ⟨A.alike_stepless h, ?_⟩
  cases t.result with
  | none => exact .none
  | some a => exact .some rfl

protected theorem bind {t₁ : Trace α} {t₂ : Trace β} {k₁ : α → Trace γ} {k₂ : β → Trace δ}
    (h : A.Linked R t₁ t₂) (hk : ∀ a b, R a b → A.Linked S (k₁ a) (k₂ b)) :
    A.Linked S (t₁ >>= k₁) (t₂ >>= k₂) := by
  cases hr₁ : t₁.result with
  | none =>
      -- neither run goes on
      rw [Trace.bind_of_none hr₁]
      rcases h with h | ⟨halike, hrel⟩
      · rw [hr₁] at h
        exact Or.inl h
      · rw [hr₁] at hrel
        cases hr₂ : t₂.result with
        | some b =>
            rw [hr₂] at hrel
            cases hrel
        | none =>
            rw [Trace.bind_of_none hr₂]
            exact Or.inr ⟨halike, .none⟩
  | some a =>
      rw [Trace.bind_of_some hr₁]
      rcases h with h | ⟨halike, hrel⟩
      · rw [hr₁] at h
        exact Or.inl (A.excused_append_left h)
      · rw [hr₁] at hrel
        cases hr₂ : t₂.result with
        | none =>
            rw [hr₂] at hrel
            cases hrel
        | some b =>
            rw [hr₂] at hrel
            rw [Trace.bind_of_some hr₂]
            cases hrel with
            | some hab =>
                rcases hk a b hab with hexcused | ⟨halike', hrel'⟩
                · exact Or.inl (A.excused_append_right hexcused)
                · exact Or.inr ⟨A.alike_append halike halike', hrel'⟩

end Linked

/-- Computations that meet an accord from related states, and come to related states. -/
def coupling (A : Accord) : Coupling Unit where
  Rel _ _ R m₁ m₂ := ∀ st₁ st₂, A.Near st₁ st₂ →
    A.Linked (fun p q => R p.1 q.1 ∧ A.Near p.2 q.2) (m₁ st₁) (m₂ st₂)
  bind := by
    intro α β i j k R S m₁ m₂ k₁ k₂ hm hk st₁ st₂ h
    refine Linked.bind (hm st₁ st₂ h) ?_
    rintro ⟨a, σ₁⟩ ⟨b, σ₂⟩ ⟨hab, hσ⟩
    exact hk a b hab σ₁ σ₂ hσ
  done := fun _ _ h => Linked.pure ⟨rfl, h⟩
  within _ _ := ()
  secretly := by
    intro _ hidden m₁ m₂ h st₁ st₂ hnear
    have hprivate : st₁.inPrivate = st₂.inPrivate := congrArg Frame.inPrivate (A.near_frame hnear)
    have hset (b : Bool) {x y : RenderState} (hxy : A.Near x y) :
        A.Near { x with inPrivate := b } { y with inPrivate := b } := by
      let hide (st : RenderState) : RenderState := { st with inPrivate := b }
      have hhide (x y : RenderState) (hxy : x.frame = y.frame) :
          (hide x).frame = (hide y).frame := by
        simp only [RenderState.frame, Frame.mk.injEq, hide] at hxy ⊢
        exact ⟨hxy.1, hxy.2.1, trivial, hxy.2.2.2⟩
      exact A.near_change hxy hhide
    have hin := hset (st₁.inPrivate || hidden) hnear
    refine Linked.bind (h _ _ (by simpa [hprivate] using hin)) ?_
    rintro ⟨⟨⟩, σ₁⟩ ⟨⟨⟩, σ₂⟩ ⟨-, hσ⟩
    exact Linked.pure ⟨rfl, by simpa [hprivate] using hset st₁.inPrivate hσ⟩

/-- **Two computations that meet an accord** from related states: they give the same value and
related states. -/
abbrev Meets (A : Accord) (m₁ m₂ : Render α) : Prop := A.coupling.Rel () () Eq m₁ m₂

namespace Meets

protected theorem pure (a : α) : A.Meets (pure a) (pure a) :=
  fun _ _ h => Linked.pure ⟨rfl, h⟩

/-- **Accords go through sequences.** -/
protected theorem bind {m₁ m₂ : Render α} {k₁ k₂ : α → Render β} (hm : A.Meets m₁ m₂)
    (hk : ∀ a, A.Meets (k₁ a) (k₂ a)) : A.Meets (m₁ >>= k₁) (m₂ >>= k₂) := by
  refine A.coupling.bind hm ?_
  rintro a _ rfl
  exact hk a

/-- What is read from related states. -/
theorem get_bind {k₁ k₂ : RenderState → Render β}
    (hk : ∀ st₁ st₂, A.Near st₁ st₂ → A.Meets (k₁ st₁) (k₂ st₂)) :
    A.Meets (get >>= k₁) (get >>= k₂) := by
  intro st₁ st₂ h
  rw [run_get_bind, run_get_bind]
  exact hk st₁ st₂ h st₁ st₂ h

theorem modify {change : RenderState → RenderState}
    (h : ∀ a b, a.frame = b.frame → (change a).frame = (change b).frame) :
    A.Meets (modify change : Render PUnit) (modify change) :=
  fun _ _ hnear => Linked.pure ⟨rfl, A.near_change hnear h⟩

theorem setSkipType (b : Bool) : A.Meets (Render.setSkipType b) (Render.setSkipType b) :=
  Meets.modify fun _ _ h => h

/-- One trace beside another, in front of which the state is left alone. -/
theorem lift {t₁ t₂ : Trace α} (h : A.Linked Eq t₁ t₂) :
    A.Meets (liftM t₁ : Render α) (liftM t₂) := by
  intro st₁ st₂ hnear
  refine Linked.bind h ?_
  rintro a b rfl
  exact Linked.pure ⟨rfl, hnear⟩

theorem write (t : String) : A.Meets (Render.write t) (Render.write t) :=
  lift (Linked.refl (by simp [Trace.write, Trace.emit, Effect.step?]))

theorem log (level : Level) (message : String) :
    A.Meets (Render.log level message) (Render.log level message) :=
  lift (Linked.refl (by simp [Trace.log, Trace.emit, Effect.step?]))

theorem step {e : Step} (h : A.Alike [.step e] [.step e]) :
    A.Meets (Render.step e) (Render.step e) :=
  lift (Or.inr ⟨h, .some rfl⟩)

theorem ite {c : Prop} [Decidable c] {m₁ m₂ n₁ n₂ : Render α} (hm : c → A.Meets m₁ m₂)
    (hn : ¬c → A.Meets n₁ n₂) : A.Meets (if c then m₁ else n₁) (if c then m₂ else n₂) := by
  split
  · next hc => exact hm hc
  · next hc => exact hn hc

theorem stalled : A.Meets (Render.stalled : Render α) Render.stalled :=
  fun _ _ _ => Or.inr ⟨alike_nil, .none⟩

/-- After a step that excuses the first run nothing is asked. -/
theorem of_excused {e : Step} (h : A.Excused [.step e] true) {k : Unit → Render β}
    {m : Render β} : A.Meets (Render.step e >>= k) m := by
  intro st₁ st₂ _
  have hstep : (Render.step e st₁).result = some ((), st₁) := rfl
  rw [run_bind_of_some hstep]
  exact Or.inl (A.excused_append_left h)

/-- The same value, seen with what is known of every value with itself. -/
theorem mono {R : α → α → Prop} {m₁ m₂ : Render α} (h : A.Meets m₁ m₂) (hR : ∀ a, R a a) :
    A.coupling.Rel () () R m₁ m₂ := by
  intro st₁ st₂ hnear
  rcases h st₁ st₂ hnear with hexcused | ⟨halike, hrel⟩
  · exact Or.inl hexcused
  · refine Or.inr ⟨halike, ?_⟩
    generalize (m₁ st₁).result = r₁ at hrel
    generalize (m₂ st₂).result = r₂ at hrel
    cases hrel with
    | none => exact .none
    | @some p q hpq =>
        obtain ⟨hsame, hσ⟩ := hpq
        exact .some ⟨by rw [hsame]; exact hR _, hσ⟩

end Meets

theorem holding_meets {locks : List Address} {m₁ m₂ : Render Unit} (h : A.Meets m₁ m₂) :
    A.Meets (Render.holding locks m₁) (Render.holding locks m₂) := by
  refine Meets.get_bind fun st₁ st₂ hnear => ?_
  have hheld : st₁.held = st₂.held := congrArg Frame.held (A.near_frame hnear)
  rw [hheld]
  have hset (held : List Address) : A.Meets (modify fun st => { st with held := held } :
      Render PUnit) (modify fun st => { st with held := held }) := by
    refine Meets.modify fun x y hxy => ?_
    simp only [RenderState.frame, Frame.mk.injEq] at hxy ⊢
    exact ⟨hxy.1, hxy.2.1, hxy.2.2.1, trivial⟩
  exact Meets.bind (hset _) fun _ => Meets.bind h fun _ => hset _

end Accord

/-! ### Pieces that all modes share -/

namespace KeyOrder

variable {A : Accord} {s : Scene} {echo₁ echo₂ : NodeId → Trace String}

theorem echoes_linked (h : ∀ key, A.Linked Eq (echo₁ key) (echo₂ key)) (es : List Entry) :
    A.Linked Eq (echoes echo₁ es) (echoes echo₂ es) := by
  induction es with
  | nil => exact .pure rfl
  | cons e es ih =>
      refine (h e.key).bind ?_
      rintro t _ rfl
      refine ih.bind ?_
      rintro keyed _ rfl
      exact .pure rfl

/-- Ordering the entries meets an accord if the compact texts of the keys do. -/
theorem sort_linked (h : ∀ key, A.Linked Eq (echo₁ key) (echo₂ key)) (hookAllowed : Bool)
    (es : List Entry) :
    A.Linked Eq (sort s echo₁ hookAllowed es) (sort s echo₂ hookAllowed es) := by
  unfold sort
  split
  · exact .pure rfl
  · rw [sortByText_eq, sortByText_eq]
    obtain ⟨hlogs, -⟩ := asked_quiet s.graph hookAllowed es
    refine (Accord.Linked.refl fun e he => Effect.step?_eq_none (hlogs e he)).bind ?_
    rintro described _ rfl
    cases described with
    | some keyed => exact .pure rfl
    | none =>
        simp only [settle]
        split
        · refine (echoes_linked h es).bind ?_
          rintro keyed _ rfl
          exact .pure rfl
        · exact .pure rfl

end KeyOrder

namespace Chain

variable {A : Accord}

theorem enter_meets (chain : Chain) (a : Address) : A.Meets (chain.enter a) (chain.enter a) := by
  refine Accord.Meets.get_bind fun st₁ st₂ hnear => ?_
  have hpath : st₁.path = st₂.path := congrArg Frame.path (A.near_frame hnear)
  have hopen : A.Near { st₁ with path := a :: st₁.path } { st₂ with path := a :: st₂.path } := by
    let opened (st : RenderState) : RenderState := { st with path := a :: st.path }
    have hopened (x y : RenderState) (hxy : x.frame = y.frame) :
        (opened x).frame = (opened y).frame := by
      simp only [RenderState.frame, Frame.mk.injEq, opened] at hxy ⊢
      exact ⟨by rw [hxy.1], hxy.2⟩
    exact A.near_change hnear hopened
  simp only [hpath] at hopen ⊢
  refine Accord.Meets.ite (fun _ => ?_) fun _ => ?_
  · exact Accord.Meets.bind (Accord.Meets.log _ _) fun _ => Accord.Meets.pure _
  · exact fun _ _ _ => Accord.Linked.pure ⟨rfl, hopen⟩

/-- **A chain is decided by the graph and the path.** -/
theorem walk_meets (s : Scene) (n : Nat) (chain : Chain) (id : NodeId) :
    A.Meets (walk s n chain id) (walk s n chain id) := by
  induction n generalizing chain id with
  | zero => exact Accord.Meets.stalled
  | succ n ih =>
      cases hs : (s.graph.node id).shape with
      | pointer a target =>
          cases target with
          | none =>
              simp only [walk, hs]
              exact Accord.Meets.pure _
          | some target =>
              simp only [walk, hs]
              refine Accord.Meets.bind (enter_meets _ _) ?_
              rintro ⟨chain', closed⟩
              refine Accord.Meets.ite (fun _ => Accord.Meets.pure _) fun _ => ?_
              cases behind? s.graph target with
              | none => exact Accord.Meets.pure _
              | some next => exact ih chain' next
      | guarded a content lock =>
          simp only [walk, hs]
          refine Accord.Meets.ite (fun _ => Accord.Meets.pure _) fun _ => ?_
          refine Accord.Meets.bind (enter_meets _ _) ?_
          rintro ⟨chain', closed⟩
          refine Accord.Meets.ite (fun _ => Accord.Meets.pure _) fun _ => ?_
          cases (Shape.guarded a content lock).acquire? with
          | none => exact Accord.Meets.bind (Accord.Meets.log _ _) fun _ => Accord.Meets.pure _
          | some target =>
              simp only
              cases behind? s.graph target with
              | none => exact Accord.Meets.pure _
              | some next => exact ih _ next
      | _ =>
          simp only [walk, hs]
          exact Accord.Meets.pure _

end Chain

/-! ### Modes -/

namespace Mode

/-- **What a mode writes around values**, with the flags it moves. -/
inductive Ornament (s : Scene) : (Mode → Render Unit) → Prop
  | header (n : Node) : Ornament s (header s n)
  | invalid : Ornament s (invalid s.config)
  | text (t : Mode → String) : Ornament s fun mode => Render.write (t mode)
  | divider : Ornament s fun mode => Render.write mode.divider
  | terminator : Ornament s fun mode => Render.write mode.terminator
  | label (name : String) : Ornament s (label s.config name)
  | keyMark : Ornament s keyMark
  | beginPart : Ornament s beginPart
  | beginNested (shape : Shape) : Ornament s (beginNested shape)
  | chainHeader (chain : Chain) (link : Link) : Ornament s (chainHeader s chain link)
  | endingMark (ending : Ending) : Ornament s fun mode => Render.write (endingMark ending mode)
  | chainFooter : Ornament s chainFooter

end Mode

/-- **Two modes that fit an accord.** -/
structure Accord.Fits (A : Accord) (s : Scene) (mode₁ mode₂ : Mode) : Prop where
  ornament : ∀ {o}, Mode.Ornament s o → A.Meets (o mode₁) (o mode₂)
  nest : ∀ {id bracket inside₁ inside₂},
    (A.Excused [.step (.entered id)] true ∨ A.Meets inside₁ inside₂) →
    A.Meets (mode₁.nest s id bracket inside₁) (mode₂.nest s id bracket inside₂)
  elements : ∀ {id q visit₁ visit₂}, ¬A.Excused [.step (.entered id)] true →
    (s.graph.shape id = .array q ∨ s.graph.shape id = .slice (some q)) →
    A.Meets (Walk.spelled s visit₁ mode₁ q) (Walk.spelled s visit₂ mode₂ q) →
    A.Meets (Walk.elements s visit₁ mode₁ q) (Walk.elements s visit₂ mode₂ q)
  chain : ∀ {id visit₁ visit₂}, (s.graph.shape id).isIndirection s.config = true →
    A.Meets (Walk.follow s visit₁ mode₁ id) (Walk.follow s visit₂ mode₂ id) →
    A.Meets (Walk.indirection s visit₁ mode₁ id) (Walk.indirection s visit₂ mode₂ id)

namespace Accord.Fits

open Walk

variable {A : Accord} {s : Scene} {mode₁ mode₂ : Mode} {visit₁ visit₂ : Visit}
  {texts₁ texts₂ : Texts} (hfits : A.Fits s mode₁ mode₂)

include hfits

theorem fits : A.coupling.Fits ⟨s, mode₁, texts₁, visit₁⟩ ⟨s, mode₂, texts₂, visit₂⟩ where
  divider _ := hfits.ornament .divider
  terminator _ := hfits.ornament .terminator
  keyMark _ := hfits.ornament .keyMark
  beginPart _ := hfits.ornament .beginPart
  label _ name := hfits.ornament (.label name)

theorem front_meets (id : NodeId) : A.Meets (front s mode₁ id) (front s mode₂ id) := by
  have hask : A.Meets (ask s (s.graph.node id)) (ask s (s.graph.node id)) := by
    refine Meets.get_bind fun st₁ st₂ hnear => ?_
    have hprivate : st₁.inPrivate = st₂.inPrivate :=
      congrArg Frame.inPrivate (A.near_frame hnear)
    simp only [RenderState.hookAllowed, hprivate]
    refine Meets.ite (fun _ => Meets.lift (Linked.refl ?_)) fun _ => Meets.pure _
    exact ((s.graph.node id).consult_quiet s.config).1
  refine Meets.bind (hfits.ornament (.header _)) fun _ => Meets.bind hask fun answer => ?_
  exact Meets.bind (Meets.step (A.alike_step (by simp))) fun _ => Meets.pure _

variable (hvisit : ∀ child, A.Meets (visit₁ mode₁ child) (visit₂ mode₂ child))

include hvisit

theorem nested_meets (child : NodeId) :
    A.Meets (nested s visit₁ mode₁ child) (nested s visit₂ mode₂ child) :=
  Meets.bind (hfits.ornament (.beginNested _)) fun _ => hvisit child

theorem field_meets (fd : Field) :
    A.Meets (field s visit₁ mode₁ fd) (field s visit₂ mode₂ fd) := by
  let texts : Texts := fun _ _ => pure ""
  exact hfits.fits.field_couples (a := ⟨s, mode₁, texts, visit₁⟩) (b := ⟨s, mode₂, texts, visit₂⟩)
    ⟨rfl, rfl, hfits.nested_meets hvisit fd.value⟩

/-- What stands at the end of a chain. -/
theorem arrive_meets (chain : Chain) (link : Link) :
    A.Meets (arrive visit₁ mode₁ chain link) (arrive visit₂ mode₂ chain link) := by
  cases hending : link.ending? with
  | some ending =>
      rw [arrive_of_ending hending, arrive_of_ending hending]
      exact Meets.bind (Meets.step (A.alike_step (by simp))) fun _ =>
        hfits.ornament (.endingMark ending)
  | none =>
      cases link with
      | value v =>
          refine Meets.bind (Meets.step (A.alike_step (by simp))) fun _ => ?_
          exact Meets.bind (Meets.setSkipType true) fun _ => holding_meets (hvisit v)
      | _ => simp [Link.ending?] at hending

theorem follow_meets (id : NodeId) :
    A.Meets (follow s visit₁ mode₁ id) (follow s visit₂ mode₂ id) := by
  let side₁ : Side := ⟨s, mode₁, fun _ _ => pure "", visit₁⟩
  let side₂ : Side := ⟨s, mode₂, fun _ _ => pure "", visit₂⟩
  refine Coupling.follow_couples (a := side₁) (b := side₂) (Chain.walk_meets s _ _ id) ?_ ?_
    (hfits.ornament .chainFooter) ?_
  · rintro p _ rfl
    exact hfits.ornament (.chainHeader p.1 p.2)
  · rintro p _ rfl
    exact hfits.arrive_meets hvisit p.1 p.2
  · rintro p _ rfl
    refine Meets.modify fun x y hxy => ?_
    simp only [RenderState.frame, RenderState.leave, Frame.mk.injEq] at hxy ⊢
    exact ⟨by rw [hxy.1], hxy.2⟩

variable (htexts : ∀ held key, A.Linked Eq (texts₁ held key) (texts₂ held key))

include htexts in
omit hfits hvisit in
theorem arranged_meets (es : List Entry) :
    A.Meets (arranged s texts₁ es) (arranged s texts₂ es) := by
  refine Meets.ite (fun _ => ?_) fun _ => Meets.pure _
  refine Meets.get_bind fun st₁ st₂ hnear => ?_
  -- whether keys may be asked and which locks are held depends on the frame alone
  have hframe := A.near_frame hnear
  have hhook : st₁.hookAllowed s = st₂.hookAllowed s := by
    have hprivate : st₁.inPrivate = st₂.inPrivate := congrArg Frame.inPrivate hframe
    simp only [RenderState.hookAllowed, hprivate]
  have hheld : st₁.held = st₂.held := congrArg Frame.held hframe
  rw [hhook, hheld]
  exact Meets.lift (KeyOrder.sort_linked (htexts _) _ es)

include htexts

theorem forms_meet (id : NodeId) : A.coupling.Meets ⟨s, mode₁, texts₁, visit₁⟩
    ⟨s, mode₂, texts₂, visit₂⟩ () id id (form s id) (form s id) := by
  have hnested := hfits.nested_meets hvisit
  cases hform : form s id with
  | held content => exact .held (hvisit content)
  | invalid =>
      refine .invalid (Meets.bind (Meets.step (A.alike_step (by simp))) fun _ => ?_)
      exact hfits.ornament .invalid
  | chain =>
      exact .chain (hfits.chain (form_eq_chain_iff.1 hform) (hfits.follow_meets hvisit id))
  | leaf t => exact .leaf (hfits.ornament (.text t))
  | sequence q =>
      refine .sequence () (List.forall₂_same.2 fun child _ => hnested child) fun h => hfits.nest ?_
      by_cases hexcused : A.Excused [.step (.entered id)] true
      · exact Or.inl hexcused
      · exact Or.inr (hfits.elements hexcused (shape_of_sequence hform) h)
  | map es =>
      refine .map () ((arranged_meets htexts es).mono fun ordered => ?_) fun h =>
        hfits.nest (Or.inr h)
      exact List.forall₂_same.2 fun e _ => ⟨hnested e.key, hnested e.value⟩
  | record fds =>
      refine .record () (List.forall₂_same.2 fun fd _ => ⟨rfl, rfl, hnested fd.value⟩) fun h =>
        hfits.nest (Or.inr h)

/-- **The rule of a level in lockstep.** -/
theorem level_meets (id : NodeId) :
    A.Meets (level s texts₁ visit₁ mode₁ id) (level s texts₂ visit₂ mode₂ id) :=
  Coupling.level_couples (a := ⟨s, mode₁, texts₁, visit₁⟩) (b := ⟨s, mode₂, texts₂, visit₂⟩)
    hfits.fits (hfits.front_meets id) (hfits.forms_meet hvisit htexts id)

end Accord.Fits

/-! ### Strict accords -/

/-- **A strict accord** asks that nothing differs, unless the first run is excused. -/
structure Accord.Strict (A : Accord) : Prop where
  near_iff : ∀ {a b}, A.Near a b ↔ a = b
  alike_iff : ∀ {es fs}, A.Alike es fs ↔ es = fs

namespace Accord.Strict

variable {A : Accord} {α : Type} (hA : A.Strict)

include hA

/-- A run is in strict accord with itself. -/
theorem meets_self (m : Render α) : A.Meets m m := by
  intro st st' hnear
  obtain rfl := hA.near_iff.1 hnear
  refine Or.inr ⟨hA.alike_iff.2 rfl, ?_⟩
  cases (m st).result with
  | none => exact .none
  | some p => exact .some ⟨rfl, hA.near_iff.2 rfl⟩

/-- What two runs in strict accord come to, if the first is not excused. -/
theorem eq_of_meets {m₁ m₂ : Render α} (h : A.Meets m₁ m₂) {st : RenderState}
    (hexcused : ¬A.Excused (m₁ st).effects (m₁ st).result.isSome) : m₁ st = m₂ st := by
  rcases h st st (hA.near_iff.2 rfl) with hno | ⟨halike, hrel⟩
  · exact absurd hno hexcused
  · have heffects : (m₁ st).effects = (m₂ st).effects := hA.alike_iff.1 halike
    have hresult : (m₁ st).result = (m₂ st).result := by
      generalize (m₁ st).result = r₁ at hrel
      generalize (m₂ st).result = r₂ at hrel
      cases hrel with
      | none => rfl
      | some h => rw [Option.some.injEq, Prod.ext_iff]; exact ⟨h.1, hA.near_iff.1 h.2⟩
    generalize m₁ st = t₁ at heffects hresult
    generalize m₂ st = t₂ at heffects hresult
    cases t₁ with
    | mk e₁ r₁ => cases heffects; cases hresult; rfl

theorem trans {m₁ m₂ m₃ : Render α} (h : A.Meets m₁ m₂) (h' : A.Meets m₂ m₃) : A.Meets m₁ m₃ := by
  intro st st' hnear
  by_cases hexcused : A.Excused (m₁ st).effects (m₁ st).result.isSome
  · exact Or.inl hexcused
  · rw [hA.eq_of_meets h hexcused]
    exact h' st st' hnear

theorem calm : A.coupling.Calm := ⟨fun _ _ => hA.meets_self _⟩

theorem nest_meets {s : Scene} {id : NodeId} {bracket : Mode.Bracket}
    {inside₁ inside₂ : Render Unit} (h : A.Meets inside₁ inside₂) (mode : Mode) :
    A.Meets (mode.nest s id bracket inside₁) (mode.nest s id bracket inside₂) := by
  have hdeeper : A.Meets (Mode.deeper inside₁) (Mode.deeper inside₂) := by
    refine Meets.bind (hA.meets_self _) fun _ => ?_
    exact Meets.bind h fun _ => hA.meets_self _
  exact hA.calm.nest rfl rfl (hA.meets_self _) (hA.meets_self _) hdeeper mode

/-- Every mode fits a strict accord with itself. -/
theorem fits (hentered : ∀ id, ¬A.Excused [.step (.entered id)] true) (s : Scene) (mode : Mode) :
    A.Fits s mode mode where
  ornament _ := hA.meets_self _
  nest h := by
    rcases h with h | h
    · exact absurd h (hentered _)
    · exact hA.nest_meets h mode
  elements := by
    intro id q visit₁ visit₂ _ _ h
    let side (visit : Visit) : Walk.Side := ⟨s, mode, fun _ _ => pure "", visit⟩
    exact hA.calm.elements (a := side visit₁) (b := side visit₂) rfl rfl rfl h
  chain _ h := by
    refine Meets.bind (hA.meets_self _) fun walked => ?_
    exact Meets.ite (fun _ => h) fun _ => hA.meets_self _

end Accord.Strict

end ValueLens
