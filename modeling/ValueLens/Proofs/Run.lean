/-
**Runs of a render, alone and side by side.**

A render takes a state to a trace.  Most of its parts do little: they write, log and move the two
suppression flags, and always come to an end.  What such a *quiet* part leaves alone is the frame of
the state — the path, the depth, the privacy and the locks — and it takes no step of the walk.

The rest is proved about two runs side by side, from one state.  A *bond* says what is asked of
them: how their effects are related, and whether they have to come to an end.  With equality it
compares two ways to walk the levels below, with a property of effects it speaks of a single run,
and the rules for putting computations together are the same for all bonds.

Main definitions:

* `ValueLens.Frame`, `ValueLens.RenderState.frame` — the part of a state that a value gives back;
* `ValueLens.Render.Quiet` — computations that keep the frame and take no step;
* `ValueLens.Bond` — what is asked of two runs, with `ValueLens.Bond.same` and
  `ValueLens.Bond.acyclic`;
* `ValueLens.Bond.Holds` — two traces that meet a bond.

Main results:

* `ValueLens.Bond.Holds.bind` — **bonds go through sequences**.
-/
import ValueLens.Render.State

set_option relaxedAutoImplicit false
set_option autoImplicit false

namespace ValueLens

/-! ### Running -/

/-- A sequence of traces that came to an end did so step by step. -/
theorem Trace.exists_of_bind {α β : Type} {m : Trace α} {k : α → Trace β} {r : β}
    (h : (m >>= k).result = some r) : ∃ a, m.result = some a ∧ (k a).result = some r := by
  cases hm : m.result with
  | none =>
      rw [Trace.bind_of_none hm] at h
      exact absurd h (by simp)
  | some a =>
      rw [Trace.bind_of_some hm] at h
      exact ⟨a, rfl, h⟩

/-- What follows a computation matters only at its result. -/
theorem Trace.bind_congr {α β : Type} {m : Trace α} {k l : α → Trace β}
    (h : ∀ a, m.result = some a → k a = l a) : m >>= k = m >>= l := by
  cases hm : m.result with
  | none => rw [Trace.bind_of_none hm, Trace.bind_of_none hm]
  | some a => rw [Trace.bind_of_some hm, Trace.bind_of_some hm, h a hm]

/-- An effect of a sequence belongs to its first part or to what follows. -/
theorem Trace.mem_effects_bind {α β : Type} {m : Trace α} {k : α → Trace β} {e : Effect}
    (h : e ∈ (m >>= k).effects) : e ∈ m.effects ∨ ∃ a, m.result = some a ∧ e ∈ (k a).effects := by
  cases hm : m.result with
  | none =>
      rw [Trace.bind_of_none hm] at h
      exact Or.inl h
  | some a =>
      rw [Trace.bind_of_some hm] at h
      rcases List.mem_append.1 h with h | h
      · exact Or.inl h
      · exact Or.inr ⟨a, rfl, h⟩

/-- The first part of a sequence happens in any case. -/
theorem Trace.mem_bind_of_left {α β : Type} {m : Trace α} {e : Effect} (h : e ∈ m.effects)
    (k : α → Trace β) : e ∈ (m >>= k).effects := by
  cases hm : m.result with
  | none =>
      rw [Trace.bind_of_none hm]
      exact h
  | some a =>
      rw [Trace.bind_of_some hm]
      exact List.mem_append_left _ h

/-- The second part happens where the first has come to an end. -/
theorem Trace.mem_bind_of_right {α β : Type} {m : Trace α} {k : α → Trace β} {a : α} {e : Effect}
    (hm : m.result = some a) (h : e ∈ (k a).effects) : e ∈ (m >>= k).effects := by
  rw [Trace.bind_of_some hm]
  exact List.mem_append_right _ h

/-- The text of a sequence is the texts of its parts. -/
theorem Trace.text_bind {α β : Type} {m : Trace α} {a : α} (hm : m.result = some a)
    (k : α → Trace β) : (m >>= k).text = m.text ++ (k a).text := by
  rw [Trace.bind_of_some hm]
  simp only [Trace.text, List.filterMap_append, String.join_append]

/-- What is logged is no step of the walk. -/
theorem Effect.step?_eq_none {e : Effect} (h : e.event?.isSome) : e.step? = none := by
  cases e with
  | log event => rfl
  | write t => rfl
  | step s => simp [Effect.event?] at h

/-- What is logged is not written. -/
theorem Effect.text?_eq_none {e : Effect} (h : e.event?.isSome) : e.text? = none := by
  cases e with
  | log event => rfl
  | write t => simp [Effect.event?] at h
  | step s => rfl

/-- A captured text only logs. -/
theorem Trace.captured_logs {α : Type} (t : Trace α) :
    ∀ e ∈ t.captured.effects, e.event?.isSome :=
  fun _ he => (List.mem_filter.1 he).2

/-- A captured text takes no step of the walk. -/
theorem Trace.captured_stepless {α : Type} (t : Trace α) :
    ∀ e ∈ t.captured.effects, e.step? = none :=
  fun e he => Effect.step?_eq_none (t.captured_logs e he)

namespace Render

variable {α β : Type}

@[simp] theorem run_pure (a : α) (st : RenderState) :
    (pure a : Render α) st = ⟨[], some (a, st)⟩ := rfl

@[simp] theorem run_get (st : RenderState) :
    (get : Render RenderState) st = ⟨[], some (st, st)⟩ := rfl

@[simp] theorem run_set (σ st : RenderState) :
    (set σ : Render PUnit) st = ⟨[], some (⟨⟩, σ)⟩ := rfl

@[simp] theorem run_modify (f : RenderState → RenderState) (st : RenderState) :
    (modify f : Render PUnit) st = ⟨[], some (⟨⟩, f st)⟩ := rfl

@[simp] theorem run_setSkipType (b : Bool) (st : RenderState) :
    setSkipType b st = ⟨[], some ((), { st with skipType := b })⟩ := rfl

@[simp] theorem run_setSkipIndent (b : Bool) (st : RenderState) :
    setSkipIndent b st = ⟨[], some ((), { st with skipIndent := b })⟩ := rfl

@[simp] theorem run_write (t : String) (st : RenderState) :
    write t st = ⟨[.write t], some ((), st)⟩ := rfl

@[simp] theorem run_log (level : Level) (message : String) (st : RenderState) :
    log level message st = ⟨[.log ⟨level, message⟩], some ((), st)⟩ := rfl

@[simp] theorem run_step (e : Step) (st : RenderState) :
    step e st = ⟨[.step e], some ((), st)⟩ := rfl

@[simp] theorem run_stalled (st : RenderState) : (stalled : Render α) st = ⟨[], none⟩ := rfl

theorem run_lift_of_none {t : Trace α} (h : t.result = none) (st : RenderState) :
    (liftM t : Render α) st = ⟨t.effects, none⟩ :=
  Trace.bind_of_none h _

theorem run_lift_of_some {t : Trace α} {a : α} (h : t.result = some a) (st : RenderState) :
    (liftM t : Render α) st = ⟨t.effects, some (a, st)⟩ := by
  refine (Trace.bind_of_some h _).trans ?_
  simp

theorem run_bind_of_none {m : Render α} {st : RenderState} (h : (m st).result = none)
    (k : α → Render β) : (m >>= k) st = ⟨(m st).effects, none⟩ :=
  Trace.bind_of_none h _

theorem run_bind_of_some {m : Render α} {st σ : RenderState} {a : α}
    (h : (m st).result = some (a, σ)) (k : α → Render β) :
    (m >>= k) st = ⟨(m st).effects ++ (k a σ).effects, (k a σ).result⟩ :=
  Trace.bind_of_some h _

/-- What follows sees a computation only through what it does from a state. -/
theorem run_bind_congr {m₁ m₂ : Render α} {st : RenderState} (h : m₁ st = m₂ st)
    (k : α → Render β) : (m₁ >>= k) st = (m₂ >>= k) st :=
  congrArg (fun t : Trace (α × RenderState) => t >>= fun r => k r.1 r.2) h

theorem run_get_bind (k : RenderState → Render β) (st : RenderState) :
    (get >>= k) st = k st st := rfl

theorem run'_result (m : Render α) (st : RenderState) :
    (m.run' st).result = (m st).result.map Prod.fst := by
  change (Trace.bind (m st) _).result = _
  unfold Trace.bind
  cases (m st).result with
  | none => rfl
  | some r => rfl

theorem run'_effects (m : Render α) (st : RenderState) : (m.run' st).effects = (m st).effects := by
  change (Trace.bind (m st) _).effects = _
  unfold Trace.bind
  cases (m st).result with
  | none => rfl
  | some r => exact List.append_nil _

@[simp] theorem fromStart_result (m : Render α) :
    (fromStart m).result = (m {}).result.map Prod.fst :=
  run'_result m {}

@[simp] theorem fromStart_effects (m : Render α) : (fromStart m).effects = (m {}).effects :=
  run'_effects m {}

/-- A render is what its computation does from the initial state. -/
theorem fromStart_congr {m₁ m₂ : Render α} (h : m₁ {} = m₂ {}) : fromStart m₁ = fromStart m₂ := by
  simp only [fromStart, StateT.run']
  rw [h]

/-- A sequence that came to an end did so step by step. -/
theorem exists_of_bind {m : Render α} {k : α → Render β} {st τ : RenderState} {b : β}
    (h : ((m >>= k) st).result = some (b, τ)) :
    ∃ a σ, (m st).result = some (a, σ) ∧ (k a σ).result = some (b, τ) ∧
      ((m >>= k) st).effects = (m st).effects ++ (k a σ).effects := by
  cases hm : (m st).result with
  | none =>
      rw [run_bind_of_none hm] at h
      exact absurd h (by simp)
  | some r =>
      obtain ⟨a, σ⟩ := r
      rw [run_bind_of_some hm] at h ⊢
      exact ⟨a, σ, rfl, h, rfl⟩

/-- **What a part that ran with further locks has done.** -/
theorem exists_of_holding {locks : List Address} {m : Render Unit} {st τ : RenderState}
    (h : (holding locks m st).result = some ((), τ)) :
    ∃ σ, (m { st with held := locks ++ st.held }).result = some ((), σ) ∧
      τ = { σ with held := st.held } ∧
      (holding locks m st).effects = (m { st with held := locks ++ st.held }).effects := by
  have hrun : ((m >>= fun _ => modify fun σ => { σ with held := st.held })
      { st with held := locks ++ st.held }).result = some ((), τ) := h
  obtain ⟨⟨⟩, σ, hm, hτ, he⟩ := exists_of_bind hrun
  refine ⟨σ, hm, (Prod.mk.inj (Option.some.inj hτ)).2.symm, ?_⟩
  have heffects : (holding locks m st).effects = _ := he
  rw [heffects]
  exact List.append_nil _

end Render

/-! ### Frames -/

/-- **The part of a state that a value gives back** as it found it. -/
structure Frame where
  path : List Address
  depth : Nat
  inPrivate : Bool
  held : List Address

/-- The frame of a state. -/
def RenderState.frame (st : RenderState) : Frame := ⟨st.path, st.depth, st.inPrivate, st.held⟩

namespace Frame

/-- The frame from which a render starts. -/
def start : Frame := ⟨[], 0, false, []⟩

/-- A state with this frame. -/
def Fits (f : Frame) (st : RenderState) : Prop := st.frame = f

theorem fits_iff {f : Frame} {st : RenderState} :
    f.Fits st ↔ st.path = f.path ∧ st.depth = f.depth ∧ st.inPrivate = f.inPrivate ∧
      st.held = f.held := by
  cases f
  simp [Fits, RenderState.frame]

end Frame

/-! ### Quiet computations -/

/-- The end of a chain at an address that was on the path. -/
def Effect.closesCycle : Effect → Bool
  | .step (.ended (.cycle _)) => true
  | _ => false

theorem Effect.closesCycle_eq_false {e : Effect} (h : e.step? = none) : e.closesCycle = false := by
  cases e with
  | write t => rfl
  | log event => rfl
  | step s => simp [Effect.step?] at h

namespace Render

variable {α β : Type}

/-- **A quiet computation** comes to an end, keeps the frame and takes no step of the walk. -/
def Quiet (m : Render α) : Prop :=
  ∀ st, (∀ e ∈ (m st).effects, e.step? = none) ∧
    ∃ a σ, (m st).result = some (a, σ) ∧ σ.frame = st.frame

namespace Quiet

protected theorem pure (a : α) : Quiet (pure a : Render α) :=
  fun st => ⟨by simp, a, st, rfl, rfl⟩

protected theorem get : Quiet (get : Render RenderState) :=
  fun st => ⟨by simp, st, st, rfl, rfl⟩

theorem write (t : String) : Quiet (Render.write t) :=
  fun st => ⟨by simp [Effect.step?], (), st, rfl, rfl⟩

theorem log (level : Level) (message : String) : Quiet (Render.log level message) :=
  fun st => ⟨by simp [Effect.step?], (), st, rfl, rfl⟩

theorem setSkipType (b : Bool) : Quiet (Render.setSkipType b) :=
  fun st => ⟨by simp, (), { st with skipType := b }, rfl, rfl⟩

theorem setSkipIndent (b : Bool) : Quiet (Render.setSkipIndent b) :=
  fun st => ⟨by simp, (), { st with skipIndent := b }, rfl, rfl⟩

protected theorem bind {m : Render α} {k : α → Render β} (hm : Quiet m) (hk : ∀ a, Quiet (k a)) :
    Quiet (m >>= k) := by
  intro st
  obtain ⟨hme, a, σ, hmr, hmf⟩ := hm st
  obtain ⟨hke, b, τ, hkr, hkf⟩ := hk a σ
  rw [run_bind_of_some hmr]
  refine ⟨?_, b, τ, hkr, hkf.trans hmf⟩
  intro e he
  rcases List.mem_append.1 he with he | he
  · exact hme e he
  · exact hke e he

protected theorem ite {c : Prop} [Decidable c] {m n : Render α} (hm : Quiet m) (hn : Quiet n) :
    Quiet (if c then m else n) := by
  split
  · exact hm
  · exact hn

/-- A trace without steps that comes to an end. -/
theorem lift {t : Trace α} (he : ∀ e ∈ t.effects, e.step? = none) (hr : t.result.isSome) :
    Quiet (liftM t : Render α) := by
  intro st
  obtain ⟨a, ha⟩ := Option.isSome_iff_exists.1 hr
  rw [run_lift_of_some ha]
  exact ⟨he, a, st, rfl, rfl⟩

end Quiet

end Render

/-! ### Bonds -/

/-- **What is asked of two runs side by side.**  Every effect but the closing of a cycle has to be
related to itself. -/
structure Bond where
  /-- How the effects of the two runs are related. -/
  Alike : List Effect → List Effect → Prop
  /-- Whether both runs have to come to an end. -/
  Finishing : Prop
  alike_nil : Alike [] []
  alike_append : ∀ {a b c d : List Effect}, Alike a b → Alike c d → Alike (a ++ c) (b ++ d)
  alike_singleton : ∀ {e : Effect}, e.closesCycle = false → Alike [e] [e]

namespace Bond

/-- The same effects. -/
def same (finishing : Prop) : Bond where
  Alike a b := a = b
  Finishing := finishing
  alike_nil := rfl
  alike_append := by
    rintro a b c d rfl rfl
    rfl
  alike_singleton _ := rfl

/-- No effect of the first run closes a cycle. -/
def acyclic : Bond where
  Alike a _ := ∀ e ∈ a, e.closesCycle = false
  Finishing := False
  alike_nil := by simp
  alike_append := by
    intro a b c d h₁ h₂ e he
    rcases List.mem_append.1 he with he | he
    · exact h₁ e he
    · exact h₂ e he
  alike_singleton := by
    intro e he e' he'
    rw [List.mem_singleton.1 he']
    exact he

variable {b : Bond} {α β : Type}

theorem alike_self {es : List Effect} (h : ∀ e ∈ es, e.closesCycle = false) : b.Alike es es := by
  induction es with
  | nil => exact b.alike_nil
  | cons e es ih =>
      have hhead : b.Alike [e] [e] := b.alike_singleton (h e (by simp))
      exact b.alike_append hhead (ih fun e' he' => h e' (by simp [he']))

/-- Two traces that meet a bond. -/
structure Holds (b : Bond) (t₁ t₂ : Trace α) : Prop where
  alike : b.Alike t₁.effects t₂.effects
  result_eq : t₁.result = t₂.result
  isSome : b.Finishing → t₁.result.isSome

theorem Holds.of_same {finishing : Prop} {t₁ t₂ : Trace α} (h : (same finishing).Holds t₁ t₂) :
    t₁ = t₂ := by
  obtain ⟨e₁, r₁⟩ := t₁
  obtain ⟨e₂, r₂⟩ := t₂
  obtain ⟨he, hr, -⟩ := h
  simp only [Trace.mk.injEq]
  exact ⟨he, hr⟩

/-- A trace without closing of a cycle that comes to an end meets every bond with itself. -/
theorem Holds.refl {t : Trace α} (he : ∀ e ∈ t.effects, e.closesCycle = false)
    (hr : t.result.isSome) : b.Holds t t :=
  ⟨alike_self he, rfl, fun _ => hr⟩

theorem Holds.pure (a : α) : b.Holds (pure a : Trace α) (pure a) :=
  Holds.refl (by simp) (by simp)

/-- **Bonds go through sequences.** -/
theorem Holds.bind {t₁ t₂ : Trace α} {k₁ k₂ : α → Trace β} (h : b.Holds t₁ t₂)
    (hk : ∀ a, t₁.result = some a → b.Holds (k₁ a) (k₂ a)) :
    b.Holds (t₁ >>= k₁) (t₂ >>= k₂) := by
  -- either both stop here, or both go on with the same result
  cases h₁ : t₁.result with
  | none =>
      have h₂ : t₂.result = none := by rw [← h.result_eq, h₁]
      rw [Trace.bind_of_none h₁, Trace.bind_of_none h₂]
      refine ⟨h.alike, rfl, ?_⟩
      intro hb
      have := h.isSome hb
      rw [h₁] at this
      exact this
  | some a =>
      have h₂ : t₂.result = some a := by rw [← h.result_eq, h₁]
      rw [Trace.bind_of_some h₁, Trace.bind_of_some h₂]
      have hka := hk a h₁
      exact ⟨b.alike_append h.alike hka.alike, hka.result_eq, hka.isSome⟩

end Bond

end ValueLens
