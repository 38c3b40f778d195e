/-
**Congruences of traces.**

Where the states of two runs are the same, or where there is none, it is enough to compare traces,
by a relation that goes through sequences and that a computation without steps has with itself.
Nothing is said of the steps of a walk: who compares walks says how their steps are related.

Every congruence is a coupling of renders.  Its places are frames: two computations start from one
state with the frame of the first place, and give back a state with the frame of the second.

Main definitions:

* `ValueLens.Trace.Congruence` — relations of traces that go through sequences;
* `ValueLens.Trace.Congruence.equal`, `ValueLens.Bond.congruence` — the same trace, and traces that
  meet a bond;
* `ValueLens.Trace.Congruence.coupling` — congruent renders, from frame to frame;
* `ValueLens.Trace.Congruence.Keeps`, `ValueLens.Bond.Keeps` — congruent renders that keep a frame.

Main results:

* `ValueLens.Trace.Congruence.calm` — a quiet computation is congruent to itself;
* `ValueLens.Trace.Congruence.follow_keeps` — **a chain gives back the path it found**.
-/
import ValueLens.Proofs.Chain
import ValueLens.Proofs.Coupling

set_option relaxedAutoImplicit false
set_option autoImplicit false

namespace ValueLens

open Render

/-! ### Traces -/

/-- **A relation of traces that goes through sequences**, and that a computation has with itself if
it takes no step and comes to an end. -/
structure Trace.Congruence where
  Rel : {α : Type} → Trace α → Trace α → Prop
  bind : ∀ {α β : Type} {t₁ t₂ : Trace α} {k₁ k₂ : α → Trace β}, Rel t₁ t₂ →
    (∀ a, t₁.result = some a → Rel (k₁ a) (k₂ a)) → Rel (t₁ >>= k₁) (t₂ >>= k₂)
  refl : ∀ {α : Type} {t : Trace α}, (∀ e ∈ t.effects, e.step? = none) → t.result.isSome → Rel t t

namespace Trace.Congruence.Rel

variable {C : Congruence}

protected theorem pure {α : Type} (a : α) : C.Rel (pure a : Trace α) (pure a) :=
  C.refl (by simp) rfl

theorem write (t : String) : C.Rel (Trace.write t) (Trace.write t) :=
  C.refl (by simp [Trace.write, Trace.emit, Effect.step?]) rfl

theorem log (level : Level) (message : String) :
    C.Rel (Trace.log level message) (Trace.log level message) :=
  C.refl (by simp [Trace.log, Trace.emit, Effect.step?]) rfl

/-- A computation without a result of interest in front of others. -/
theorem seq {β : Type} {t₁ t₂ : Trace Unit} {k₁ k₂ : Unit → Trace β} (h : C.Rel t₁ t₂)
    (hk : C.Rel (k₁ ()) (k₂ ())) : C.Rel (t₁ >>= k₁) (t₂ >>= k₂) :=
  C.bind h fun _ _ => hk

end Trace.Congruence.Rel

/-- Traces that are the same. -/
def Trace.Congruence.equal : Trace.Congruence where
  Rel t₁ t₂ := t₁ = t₂
  bind := by
    rintro α β t _ k₁ k₂ rfl hk
    exact Trace.bind_congr hk
  refl _ _ := rfl

/-- Traces that meet a bond. -/
def Bond.congruence (b : Bond) : Trace.Congruence where
  Rel := b.Holds
  bind := Bond.Holds.bind
  refl he hr := Bond.Holds.refl (fun e hm => Effect.closesCycle_eq_false (he e hm)) hr

/-! ### Frames -/

namespace Frame

/-- The frame inside a container. -/
def deeper (f : Frame) : Frame := { f with depth := f.depth + 1 }

/-- The frame inside a field: what lies behind a private field is private all the way down. -/
def within (f : Frame) (field : Field) : Frame :=
  { f with inPrivate := f.inPrivate || field.visibility == .internal }

/-- The frame behind links, with the locks that are held there. -/
def along (f : Frame) (links locks : List Address) : Frame :=
  { f with path := links.reverse ++ f.path, held := locks ++ f.held }

end Frame

/-! ### Renders -/

namespace Trace.Congruence

variable {C : Congruence} {α β : Type} {f g : Frame}

/-- **Renders that are congruent from states with one frame**, and come to states with another. -/
def coupling (C : Congruence) : Coupling Frame where
  Rel f g R m₁ m₂ := ∀ st, f.Fits st → C.Rel (m₁ st) (m₂ st) ∧
    ∀ a σ, (m₁ st).result = some (a, σ) → R a a ∧ g.Fits σ
  bind := by
    intro α β i j k R S m₁ m₂ k₁ k₂ hm hk st hst
    obtain ⟨hrel, hend⟩ := hm st hst
    refine ⟨?_, ?_⟩
    · refine C.bind hrel ?_
      rintro ⟨a, σ⟩ ha
      obtain ⟨hR, hσ⟩ := hend a σ ha
      exact (hk a a hR σ hσ).1
    · intro c τ hc
      obtain ⟨a, σ, ha, hc, -⟩ := Render.exists_of_bind hc
      obtain ⟨hR, hσ⟩ := hend a σ ha
      exact (hk a a hR σ hσ).2 c τ hc
  done := by
    intro i st hst
    refine ⟨C.refl (by simp) rfl, ?_⟩
    intro a σ hσ
    obtain ⟨rfl, rfl⟩ := Prod.mk.inj (Option.some.inj hσ)
    exact ⟨rfl, hst⟩
  within f hidden := { f with inPrivate := f.inPrivate || hidden }
  secretly := by
    intro f hidden m₁ m₂ h st hst
    obtain ⟨hp, hd, hi, hl⟩ := Frame.fits_iff.1 hst
    let inner : RenderState := { st with inPrivate := st.inPrivate || hidden }
    obtain ⟨hrel, hend⟩ := h inner (Frame.fits_iff.2 ⟨hp, hd, by simp [inner, hi], hl⟩)
    refine ⟨C.bind hrel fun _ _ => C.refl (by simp) rfl, ?_⟩
    intro a τ hτ
    have hrun : ((m₁ >>= fun _ => modify fun σ => { σ with inPrivate := st.inPrivate })
        inner).result = some (a, τ) := hτ
    obtain ⟨x, σ, hx, hτ, -⟩ := Render.exists_of_bind hrun
    obtain ⟨-, hσ⟩ := hend x σ hx
    obtain ⟨hp', hd', -, hl'⟩ := Frame.fits_iff.1 hσ
    obtain ⟨rfl, rfl⟩ := Prod.mk.inj (Option.some.inj hτ)
    exact ⟨rfl, Frame.fits_iff.2 ⟨hp', hd', hi, hl'⟩⟩

/-- **Renders that are congruent and keep a frame.** -/
abbrev Keeps (C : Congruence) (f : Frame) (m₁ m₂ : Render α) : Prop := C.coupling.Rel f f Eq m₁ m₂

/-- **A quiet computation is congruent to itself.** -/
theorem calm (C : Congruence) : C.coupling.Calm := by
  refine ⟨fun {α m} f h st hst => ?_⟩
  obtain ⟨he, a, σ, hr, hf⟩ := h st
  refine ⟨C.refl he (by simp [hr]), ?_⟩
  intro a' σ' hr'
  rw [hr, Option.some.injEq, Prod.mk.injEq] at hr'
  rw [← hr'.2]
  exact ⟨rfl, hf.trans hst⟩

namespace Keeps

theorem of_quiet {m : Render α} (h : Quiet m) : C.Keeps f m m := C.calm.quiet f h

protected theorem bind {R : β → β → Prop} {m₁ m₂ : Render α} {k₁ k₂ : α → Render β}
    (hm : C.Keeps f m₁ m₂) (hk : ∀ a, C.coupling.Rel f g R (k₁ a) (k₂ a)) :
    C.coupling.Rel f g R (m₁ >>= k₁) (m₂ >>= k₂) := by
  refine C.coupling.bind hm ?_
  rintro a _ rfl
  exact hk a

/-- A quiet computation in front of others. -/
theorem quiet_bind {R : β → β → Prop} {m : Render α} {k₁ k₂ : α → Render β} (h : Quiet m)
    (hk : ∀ a, C.coupling.Rel f g R (k₁ a) (k₂ a)) : C.coupling.Rel f g R (m >>= k₁) (m >>= k₂) :=
  Keeps.bind (of_quiet h) hk

theorem ite {c : Prop} [Decidable c] {m₁ m₂ n₁ n₂ : Render α} (hm : c → C.Keeps f m₁ m₂)
    (hn : ¬c → C.Keeps f n₁ n₂) : C.Keeps f (if c then m₁ else n₁) (if c then m₂ else n₂) := by
  split
  · next hc => exact hm hc
  · next hc => exact hn hc

/-- Steps that are congruent. -/
theorem step {e₁ e₂ : Step} (h : C.Rel (Trace.step e₁) (Trace.step e₂)) :
    C.Keeps f (Render.step e₁) (Render.step e₂) := by
  intro st hst
  refine ⟨C.bind h fun _ _ => .pure _, ?_⟩
  intro a σ hσ
  obtain ⟨rfl, rfl⟩ := Prod.mk.inj (Option.some.inj hσ)
  exact ⟨rfl, hst⟩

end Keeps

/-- A result that is there already. -/
theorem pure_rel {R : α → α → Prop} {x : α} (h : R x x) :
    C.coupling.Rel f f R (pure x : Render α) (pure x) := by
  intro st hst
  refine ⟨C.refl (by simp) rfl, ?_⟩
  intro a σ hσ
  obtain ⟨rfl, rfl⟩ := Prod.mk.inj (Option.some.inj hσ)
  exact ⟨h, hst⟩

/-- A change of the state. -/
theorem modify_rel {change : RenderState → RenderState} (h : ∀ st, f.Fits st → g.Fits (change st)) :
    C.coupling.Rel f g Eq (modify change : Render Unit) (modify change) := by
  intro st hst
  refine ⟨C.refl (by simp) rfl, ?_⟩
  intro a σ hσ
  obtain ⟨rfl, rfl⟩ := Prod.mk.inj (Option.some.inj hσ)
  exact ⟨rfl, h st hst⟩

theorem deeper_keeps {inside₁ inside₂ : Render Unit} (h : C.Keeps f.deeper inside₁ inside₂) :
    C.Keeps f (Mode.deeper inside₁) (Mode.deeper inside₂) := by
  refine Coupling.seq (modify_rel ?_) (Coupling.seq h (modify_rel ?_))
  · rintro st rfl
    rfl
  · intro st hst
    obtain ⟨hp, hd, hi, hl⟩ := Frame.fits_iff.1 hst
    refine Frame.fits_iff.2 ⟨hp, ?_, hi, hl⟩
    simp [hd, Frame.deeper]

theorem holding_keeps {locks : List Address} {m₁ m₂ : Render Unit}
    (h : C.Keeps { f with held := locks ++ f.held } m₁ m₂) :
    C.Keeps f (Render.holding locks m₁) (Render.holding locks m₂) := by
  intro st hst
  obtain ⟨hp, hd, hi, hl⟩ := Frame.fits_iff.1 hst
  let inner : RenderState := { st with held := locks ++ st.held }
  obtain ⟨hrel, hend⟩ := h inner (Frame.fits_iff.2 ⟨hp, hd, hi, by simp [inner, hl]⟩)
  refine ⟨C.bind hrel fun _ _ => C.refl (by simp) rfl, ?_⟩
  intro a τ hτ
  have hrun : ((m₁ >>= fun _ => modify fun σ => { σ with held := st.held }) inner).result =
      some (a, τ) := hτ
  obtain ⟨x, σ, hx, hτ, -⟩ := Render.exists_of_bind hrun
  obtain ⟨-, hσ⟩ := hend x σ hx
  obtain ⟨hp', hd', hi', -⟩ := Frame.fits_iff.1 hσ
  obtain ⟨rfl, rfl⟩ := Prod.mk.inj (Option.some.inj hτ)
  exact ⟨rfl, Frame.fits_iff.2 ⟨hp', hd', hi', hl⟩⟩

/-! ### Chains -/

section Chains

open Walk

variable {a b : Side} {id : NodeId} (hmode : a.mode = b.mode)

include hmode

/-- What stands at the end of a chain: the value behind it, or a mark. -/
theorem arrive_keeps {chain : Chain} {link : Link}
    (hreached : ∀ v, C.Rel (Trace.step (.reached v)) (Trace.step (.reached v)))
    (hended : ∀ ending, link.ending? = some ending →
      C.Rel (Trace.step (.ended ending)) (Trace.step (.ended ending)))
    (hvalue : ∀ v, link = .value v →
      C.Keeps { f with held := chain.locks ++ f.held } (a.below v) (b.below v)) :
    C.Keeps f (arrive a.visit a.mode chain link) (arrive b.visit b.mode chain link) := by
  cases hending : link.ending? with
  | some ending =>
      rw [arrive_of_ending hending, arrive_of_ending hending, hmode]
      exact Coupling.seq (Keeps.step (hended ending hending)) (Keeps.of_quiet (Quiet.write _))
  | none =>
      cases link with
      | value v =>
          refine Coupling.seq (Keeps.step (hreached v)) ?_
          exact Keeps.quiet_bind (Quiet.setSkipType _) fun _ => holding_keeps (hvalue v rfl)
      | _ => simp [Link.ending?] at hending

/-- **A chain gives back the path it found**, whatever stands at its end. -/
theorem follow_keeps
    (hchain : ∀ n chain id, Chain.walk a.scene n chain id = Chain.walk b.scene n chain id)
    (hfuel : Chain.fuel a.scene.graph = Chain.fuel b.scene.graph)
    (hheader : ∀ chain link,
      a.mode.chainHeader a.scene chain link = b.mode.chainHeader b.scene chain link)
    (harrive : ∀ chain link new,
      Chain.Follows a.scene f.path id (Chain.links a.scene id) new link →
      (∀ v, link = .value v → chain.locks = Chain.locksBehind a.scene id) →
      C.Keeps (f.along new []) (arrive a.visit a.mode chain link)
        (arrive b.visit b.mode chain link)) :
    C.Keeps f (follow a.scene a.visit a.mode id) (follow b.scene b.visit b.mode id) := by
  obtain ⟨chain, link, new, effects, hr, he, hentered, hf, hlocks⟩ :=
    Chain.walk_outcome a.scene (Chain.fuel a.scene.graph) {} id f.path (Chain.room_lt_fuel _ _)
  have hnew : chain.entered = new := by simpa using hentered
  have hlocks' (v : NodeId) (hv : link = .value v) :
      chain.locks = Chain.locksBehind a.scene id := by simpa [Chain.locksBehind] using hlocks v hv
  -- the walk itself, whose outcome is known
  have hwalk : C.coupling.Rel f (f.along new []) (fun p q => p = (chain, link) ∧ q = p)
      (Chain.walk a.scene (Chain.fuel a.scene.graph) {} id)
      (Chain.walk b.scene (Chain.fuel b.scene.graph) {} id) := by
    intro st hst
    obtain ⟨hp, hd, hi, hl⟩ := Frame.fits_iff.1 hst
    rw [← hfuel, ← hchain, hr st hp]
    refine ⟨C.refl he rfl, ?_⟩
    intro r σ hσ
    obtain ⟨rfl, rfl⟩ := Prod.mk.inj (Option.some.inj hσ)
    exact ⟨⟨rfl, rfl⟩, Frame.fits_iff.2 ⟨rfl, hd, hi, hl⟩⟩
  refine Coupling.follow_couples hwalk ?_ ?_ ?_ ?_
  · rintro p _ ⟨rfl, rfl⟩
    rw [hheader]
    exact Keeps.of_quiet (Mode.quiet_chainHeader _ _ _ _)
  · rintro p _ ⟨rfl, rfl⟩
    exact harrive chain link new hf hlocks'
  · rw [hmode]
    exact Keeps.of_quiet (Mode.quiet_chainFooter _)
  · -- what stands at the end gives back the path with the links, so leaving them restores the path
    rintro p _ ⟨rfl, rfl⟩
    refine modify_rel fun σ hσ => ?_
    obtain ⟨hp, hd, hi, hl⟩ := Frame.fits_iff.1 hσ
    rw [hnew, RenderState.leave_opened σ hf.nodup hp]
    exact Frame.fits_iff.2 ⟨rfl, hd, hi, hl⟩

end Chains

end Trace.Congruence

/-! ### Bonds -/

namespace Bond

variable {b : Bond} {α : Type} {f : Frame}

/-- **Two computations that meet a bond and keep a frame.** -/
abbrev Keeps (b : Bond) (f : Frame) (m₁ m₂ : Render α) : Prop := b.congruence.Keeps f m₁ m₂

/-- A step that closes no cycle. -/
theorem step_holds {e : Step} (h : (Effect.step e).closesCycle = false) :
    b.congruence.Rel (Trace.step e) (Trace.step e) :=
  ⟨b.alike_singleton h, rfl, fun _ => rfl⟩

theorem step_keeps {e : Step} (h : (Effect.step e).closesCycle = false) :
    b.Keeps f (Render.step e) (Render.step e) :=
  .step (step_holds h)

end Bond

end ValueLens
