/-
**Two computations side by side.**

Two runs of a render need not do the same to be compared: one may take other steps, or write other
margins.  A *likeness* says how the effects of the two runs are related.  It is closed under
sequences and relates writes and log entries to themselves; the steps of the walk are not looked at.

Two computations are *tied* under a likeness if from related states they have effects that are alike
and come to related results and states.  The relations of states and results are given by who states
the tie, so that the two runs may be those of one computation in two scenes.

Main definitions:

* `ValueLens.Likeness` — how the effects of two runs are related;
* `ValueLens.Likeness.seeing` — the likeness of what is seen;
* `ValueLens.Likeness.Linked`, `ValueLens.Likeness.Ties` — two traces and two computations that are
  alike.

Main results:

* `ValueLens.Likeness.Ties.bind` — **likenesses go through sequences**;
* `ValueLens.Likeness.captured_linked` — texts that are told are alike.
-/
import ValueLens.Proofs.Run

set_option relaxedAutoImplicit false
set_option autoImplicit false

namespace ValueLens

open Render

/-! ### Likenesses -/

/-- **How the effects of two runs are related.** -/
structure Likeness where
  Alike : List Effect → List Effect → Prop
  alike_nil : Alike [] []
  alike_append : ∀ {es₁ es₂ fs₁ fs₂}, Alike es₁ es₂ → Alike fs₁ fs₂ →
    Alike (es₁ ++ fs₁) (es₂ ++ fs₂)
  alike_write : ∀ t, Alike [.write t] [.write t]
  alike_log : ∀ e, Alike [.log e] [.log e]
  /-- The steps of the walk are not looked at. -/
  alike_step : ∀ x y, Alike [.step x] [.step y]

namespace Likeness

variable {L : Likeness} {α β γ δ : Type}

/-- **The likeness of what is seen**: the effects that count are the same, in the same order. -/
def seeing (seen : Effect → Bool) (hstep : ∀ x, seen (.step x) = false) : Likeness where
  Alike es₁ es₂ := es₁.filter seen = es₂.filter seen
  alike_nil := rfl
  alike_append h h' := by rw [List.filter_append, List.filter_append, h, h']
  alike_write _ := rfl
  alike_log _ := rfl
  alike_step x y := by simp [hstep]

theorem alike_self (L : Likeness) (es : List Effect) : L.Alike es es := by
  induction es with
  | nil => exact L.alike_nil
  | cons e es ih =>
      have hhead : L.Alike [e] [e] := by
        cases e with
        | write t => exact L.alike_write t
        | log event => exact L.alike_log event
        | step x => exact L.alike_step x x
      exact L.alike_append hhead ih

/-- Two traces that are alike, with results related by `R`. -/
def Linked (L : Likeness) (R : α → β → Prop) (t₁ : Trace α) (t₂ : Trace β) : Prop :=
  L.Alike t₁.effects t₂.effects ∧ Option.Rel R t₁.result t₂.result

namespace Linked

variable {R : α → β → Prop} {S : γ → δ → Prop}

protected theorem pure {a : α} {b : β} (h : R a b) : L.Linked R (pure a) (pure b) :=
  ⟨L.alike_nil, .some h⟩

/-- A trace is alike to itself, with results related to themselves. -/
theorem of_refl {R : α → α → Prop} (hR : ∀ a, R a a) (t : Trace α) : L.Linked R t t := by
  refine ⟨L.alike_self _, ?_⟩
  cases t.result with
  | none => exact .none
  | some a => exact .some (hR a)

/-- Results that are the same. -/
theorem result_eq {t₁ t₂ : Trace α} (h : L.Linked Eq t₁ t₂) : t₁.result = t₂.result := by
  obtain ⟨-, hrel⟩ := h
  generalize t₁.result = r₁ at hrel
  generalize t₂.result = r₂ at hrel
  cases hrel with
  | none => rfl
  | some h => rw [h]

/-- Either both come to an end or none. -/
theorem isSome_eq {t₁ : Trace α} {t₂ : Trace β} (h : L.Linked R t₁ t₂) :
    t₁.result.isSome = t₂.result.isSome := by
  obtain ⟨-, hrel⟩ := h
  generalize t₁.result = r₁ at hrel
  generalize t₂.result = r₂ at hrel
  cases hrel with
  | none => rfl
  | some _ => rfl

/-- Results that are related in a weaker way. -/
theorem imp {R' : α → β → Prop} {t₁ : Trace α} {t₂ : Trace β} (h : L.Linked R t₁ t₂)
    (hR : ∀ a b, R a b → R' a b) : L.Linked R' t₁ t₂ := by
  obtain ⟨halike, hrel⟩ := h
  refine ⟨halike, ?_⟩
  generalize t₁.result = r₁ at hrel
  generalize t₂.result = r₂ at hrel
  cases hrel with
  | none => exact .none
  | some hab => exact .some (hR _ _ hab)

/-- What is known of the first result. -/
theorem knowing {P : α → Prop} {t₁ : Trace α} {t₂ : Trace β} (h : L.Linked R t₁ t₂)
    (hP : ∀ a, t₁.result = some a → P a) : L.Linked (fun a b => R a b ∧ P a) t₁ t₂ := by
  obtain ⟨halike, hrel⟩ := h
  refine ⟨halike, ?_⟩
  generalize t₁.result = r₁ at hrel hP
  generalize t₂.result = r₂ at hrel
  cases hrel with
  | none => exact .none
  | some hab => exact .some ⟨hab, hP _ rfl⟩

protected theorem bind {t₁ : Trace α} {t₂ : Trace β} {k₁ : α → Trace γ} {k₂ : β → Trace δ}
    (h : L.Linked R t₁ t₂) (hk : ∀ a b, R a b → L.Linked S (k₁ a) (k₂ b)) :
    L.Linked S (t₁ >>= k₁) (t₂ >>= k₂) := by
  obtain ⟨halike, hrel⟩ := h
  cases hr₁ : t₁.result with
  | none =>
      cases hr₂ : t₂.result with
      | some b => rw [hr₁, hr₂] at hrel; cases hrel
      | none =>
          rw [Trace.bind_of_none hr₁, Trace.bind_of_none hr₂]
          exact ⟨halike, .none⟩
  | some a =>
      cases hr₂ : t₂.result with
      | none => rw [hr₁, hr₂] at hrel; cases hrel
      | some b =>
          rw [hr₁, hr₂] at hrel
          cases hrel with
          | some hab =>
              obtain ⟨halike', hrel'⟩ := hk a b hab
              rw [Trace.bind_of_some hr₁, Trace.bind_of_some hr₂]
              exact ⟨L.alike_append halike halike', hrel'⟩

end Linked

/-- **Two computations that are alike**: from states related by `N` they come to results related by
`R` and states related by `M`. -/
def Ties (L : Likeness) (N M : RenderState → RenderState → Prop) (R : α → β → Prop)
    (m₁ : Render α) (m₂ : Render β) : Prop :=
  ∀ st₁ st₂, N st₁ st₂ → L.Linked (fun x y => R x.1 y.1 ∧ M x.2 y.2) (m₁ st₁) (m₂ st₂)

namespace Ties

variable {N M P : RenderState → RenderState → Prop} {R : α → β → Prop} {S : γ → δ → Prop}

protected theorem pure {a : α} {b : β} (h : R a b) : L.Ties N N R (pure a) (pure b) :=
  fun _ _ hN => Linked.pure ⟨h, hN⟩

/-- A computation is alike to itself. -/
protected theorem refl (m : Render α) : L.Ties Eq Eq Eq m m := by
  rintro st _ rfl
  exact .of_refl (fun _ => ⟨rfl, rfl⟩) _

/-- **Likenesses go through sequences.** -/
protected theorem bind {m₁ : Render α} {m₂ : Render β} {k₁ : α → Render γ} {k₂ : β → Render δ}
    (hm : L.Ties N M R m₁ m₂) (hk : ∀ a b, R a b → L.Ties M P S (k₁ a) (k₂ b)) :
    L.Ties N P S (m₁ >>= k₁) (m₂ >>= k₂) := by
  intro st₁ st₂ hN
  refine Linked.bind (hm st₁ st₂ hN) ?_
  rintro ⟨a, σ₁⟩ ⟨b, σ₂⟩ ⟨hab, hM⟩
  exact hk a b hab σ₁ σ₂ hM

/-- A computation without a result of interest in front of others. -/
theorem seq {m₁ m₂ : Render Unit} {k₁ : Unit → Render γ} {k₂ : Unit → Render δ}
    (hm : L.Ties N M Eq m₁ m₂) (hk : L.Ties M P S (k₁ ()) (k₂ ())) :
    L.Ties N P S (m₁ >>= k₁) (m₂ >>= k₂) :=
  Ties.bind hm fun _ _ _ => hk

theorem weaken {m₁ : Render α} {m₂ : Render β} (hm : L.Ties N M R m₁ m₂)
    (h : ∀ st₁ st₂, P st₁ st₂ → N st₁ st₂) : L.Ties P M R m₁ m₂ :=
  fun st₁ st₂ hP => hm st₁ st₂ (h st₁ st₂ hP)

/-- What is read from related states, which are known from there on. -/
theorem get_bind_at {k₁ : RenderState → Render γ} {k₂ : RenderState → Render δ}
    (hk : ∀ st₁ st₂, N st₁ st₂ →
      L.Ties (fun σ₁ σ₂ => σ₁ = st₁ ∧ σ₂ = st₂) P S (k₁ st₁) (k₂ st₂)) :
    L.Ties N P S (get >>= k₁) (get >>= k₂) := by
  intro st₁ st₂ hN
  rw [run_get_bind, run_get_bind]
  exact hk st₁ st₂ hN st₁ st₂ ⟨rfl, rfl⟩

theorem get_bind {k₁ : RenderState → Render γ} {k₂ : RenderState → Render δ}
    (hk : ∀ st₁ st₂, N st₁ st₂ → L.Ties N P S (k₁ st₁) (k₂ st₂)) :
    L.Ties N P S (get >>= k₁) (get >>= k₂) := by
  refine get_bind_at fun st₁ st₂ hN => (hk st₁ st₂ hN).weaken ?_
  rintro _ _ ⟨rfl, rfl⟩
  exact hN

theorem modify {change₁ change₂ : RenderState → RenderState}
    (h : ∀ st₁ st₂, N st₁ st₂ → M (change₁ st₁) (change₂ st₂)) :
    L.Ties N M Eq (modify change₁ : Render PUnit) (modify change₂) :=
  fun st₁ st₂ hN => Linked.pure ⟨rfl, h st₁ st₂ hN⟩

/-- One trace beside another, in front of which the state is left alone. -/
theorem lift {t₁ : Trace α} {t₂ : Trace β} (h : L.Linked R t₁ t₂) :
    L.Ties N N R (liftM t₁ : Render α) (liftM t₂) := by
  intro st₁ st₂ hN
  refine Linked.bind h ?_
  intro a b hab
  exact Linked.pure ⟨hab, hN⟩

/-- One effect beside another. -/
theorem emit {e₁ e₂ : Effect} (h : L.Alike [e₁] [e₂]) :
    L.Ties N N Eq (liftM (Trace.emit e₁) : Render Unit) (liftM (Trace.emit e₂)) :=
  lift ⟨h, .some rfl⟩

theorem write (t : String) : L.Ties N N Eq (Render.write t) (Render.write t) :=
  emit (L.alike_write t)

theorem step (x y : Step) : L.Ties N N Eq (Render.step x) (Render.step y) :=
  emit (L.alike_step x y)

theorem ite {c₁ c₂ : Prop} [Decidable c₁] [Decidable c₂] {m₁ n₁ : Render α} {m₂ n₂ : Render β}
    (hc : c₁ ↔ c₂) (hm : c₁ → L.Ties N M R m₁ m₂) (hn : ¬c₁ → L.Ties N M R n₁ n₂) :
    L.Ties N M R (if c₁ then m₁ else n₁) (if c₂ then m₂ else n₂) := by
  by_cases h : c₁
  · rw [if_pos h, if_pos (hc.1 h)]
    exact hm h
  · rw [if_neg h, if_neg fun h' => h (hc.2 h')]
    exact hn h

theorem stalled : L.Ties N M R (Render.stalled : Render α) (Render.stalled : Render β) :=
  fun _ _ _ => ⟨L.alike_nil, .none⟩

/-- Two renders from the initial state. -/
theorem fromStart {m₁ : Render α} {m₂ : Render β} (hm : L.Ties N M R m₁ m₂) (h : N {} {}) :
    L.Linked R (Render.fromStart m₁) (Render.fromStart m₂) := by
  refine Linked.bind (hm {} {} h) ?_
  rintro ⟨a, σ₁⟩ ⟨b, σ₂⟩ ⟨hab, -⟩
  exact Linked.pure hab

end Ties

/-! ### What is written first -/

/-- The first text of some effects. -/
def firstText? (es : List Effect) : Option String := (es.filterMap Effect.text?).head?

/-- **Computations that open with the same text**, which is not empty, from states related by
`N`. -/
def OpenAlike (N : RenderState → RenderState → Prop) (m₁ : Render α) (m₂ : Render β) : Prop :=
  ∀ st₁ st₂, N st₁ st₂ →
    ∃ t, t ≠ "" ∧ firstText? (m₁ st₁).effects = some t ∧ firstText? (m₂ st₂).effects = some t

/-- A computation that writes nothing. -/
def Silent (m : Render α) : Prop := ∀ st, (m st).effects.filterMap Effect.text? = []

theorem Silent.pure (a : α) : Silent (pure a : Render α) := fun _ => rfl

theorem Silent.bind {m : Render α} {k : α → Render γ} (hm : Silent m) (hk : ∀ a, Silent (k a)) :
    Silent (m >>= k) := by
  intro st
  cases hr : (m st).result with
  | none =>
      rw [run_bind_of_none hr]
      exact hm st
  | some p =>
      rw [run_bind_of_some hr, List.filterMap_append, hm st, hk p.1 p.2]
      rfl

namespace OpenAlike

variable {N M : RenderState → RenderState → Prop} {m₁ : Render α} {m₂ : Render β}
  {k₁ : α → Render γ} {k₂ : β → Render δ}

theorem write {t : String} (h : t ≠ "") : OpenAlike N (Render.write t) (Render.write t) :=
  fun _ _ _ => ⟨t, h, rfl, rfl⟩

/-- What follows does not matter. -/
theorem bind_left (h : OpenAlike N m₁ m₂) : OpenAlike N (m₁ >>= k₁) (m₂ >>= k₂) := by
  have hfirst {ε ζ : Type} {m : Render ε} {k : ε → Render ζ} {st : RenderState} {t : String}
      (ht : firstText? (m st).effects = some t) : firstText? ((m >>= k) st).effects = some t := by
    cases hr : (m st).result with
    | none => rwa [run_bind_of_none hr]
    | some p =>
        rw [run_bind_of_some hr, firstText?, List.filterMap_append, List.head?_append]
        rw [firstText?] at ht
        rw [ht]
        rfl
  intro st₁ st₂ hN
  obtain ⟨t, hne, h₁, h₂⟩ := h st₁ st₂ hN
  exact ⟨t, hne, hfirst h₁, hfirst h₂⟩

/-- What comes before does not matter, if it comes to an end and writes nothing. -/
theorem silent_bind {R : α → β → Prop} (hm : L.Ties N M R m₁ m₂) (h₁ : Silent m₁) (h₂ : Silent m₂)
    (hends : ∀ st₁ st₂, N st₁ st₂ → (m₁ st₁).result.isSome = true)
    (hk : ∀ a b, R a b → OpenAlike M (k₁ a) (k₂ b)) :
    OpenAlike N (m₁ >>= k₁) (m₂ >>= k₂) := by
  intro st₁ st₂ hN
  obtain ⟨-, hrel⟩ := hm st₁ st₂ hN
  obtain ⟨p, hp⟩ := Option.isSome_iff_exists.1 (hends st₁ st₂ hN)
  rw [hp] at hrel
  cases hq : (m₂ st₂).result with
  | none => rw [hq] at hrel; cases hrel
  | some q =>
      rw [hq] at hrel
      cases hrel with
      | some hpq =>
          obtain ⟨t, hne, ht₁, ht₂⟩ := hk p.1 q.1 hpq.1 p.2 q.2 hpq.2
          refine ⟨t, hne, ?_, ?_⟩
          · rwa [run_bind_of_some hp, firstText?, List.filterMap_append, h₁ st₁]
          · rwa [run_bind_of_some hq, firstText?, List.filterMap_append, h₂ st₂]

end OpenAlike

/-! ### Texts that are told -/

/-- **A likeness that tells**: what is written is the same, and the log is alike by itself. -/
structure Telling (L : Likeness) : Prop where
  texts_eq : ∀ {es₁ es₂}, L.Alike es₁ es₂ →
    es₁.filterMap Effect.text? = es₂.filterMap Effect.text?
  alike_events : ∀ {es₁ es₂}, L.Alike es₁ es₂ →
    L.Alike (es₁.filter fun e => e.event?.isSome) (es₂.filter fun e => e.event?.isSome)

/-- The text of a computation, in place of its result. -/
theorem Telling.captured_linked (hL : L.Telling) {R : α → β → Prop} {t₁ : Trace α} {t₂ : Trace β}
    (h : L.Linked R t₁ t₂) : L.Linked Eq t₁.captured t₂.captured := by
  obtain ⟨halike, hrel⟩ := h
  refine ⟨hL.alike_events halike, ?_⟩
  have htext : t₁.text = t₂.text := congrArg String.join (hL.texts_eq halike)
  simp only [Trace.captured, htext]
  generalize t₁.result = r₁ at hrel
  generalize t₂.result = r₂ at hrel
  cases hrel with
  | none => exact .none
  | some _ => exact .some rfl

/-- Seeing what is written tells. -/
theorem seeing_telling {seen : Effect → Bool} (hstep : ∀ x, seen (.step x) = false)
    (hwrite : ∀ t, seen (.write t) = true) : (seeing seen hstep).Telling where
  texts_eq := by
    have htexts (es : List Effect) :
        (es.filter seen).filterMap Effect.text? = es.filterMap Effect.text? := by
      rw [List.filterMap_filter]
      refine congrArg (List.filterMap · es) (funext fun e => ?_)
      cases e with
      | write t => simp [hwrite]
      | _ => simp [Effect.text?]
    intro es₁ es₂ h
    rw [← htexts es₁, ← htexts es₂]
    exact congrArg _ h
  alike_events := by
    intro es₁ es₂ h
    have hcomm (es : List Effect) : (es.filter fun e => e.event?.isSome).filter seen =
        (es.filter seen).filter fun e => e.event?.isSome := by
      simp only [List.filter_filter, Bool.and_comm]
    change List.filter _ _ = List.filter _ _
    rw [hcomm, hcomm]
    exact congrArg _ h

/-- **The same output**: the same texts and the same log, whatever steps were taken. -/
def output : Likeness := seeing (fun e => !e.step?.isSome) fun _ => rfl

/-- **The same writing**: the same texts, whatever was logged and whatever steps were taken. -/
def writing : Likeness := seeing (fun e => e.text?.isSome) fun _ => rfl

theorem output_telling : output.Telling := seeing_telling _ fun _ => rfl

theorem writing_telling : writing.Telling := seeing_telling _ fun _ => rfl

/-- The same output is seen in both views. -/
theorem output_eq {R : α → β → Prop} {t₁ : Trace α} {t₂ : Trace β} (h : output.Linked R t₁ t₂) :
    t₁.text = t₂.text ∧ t₁.logs = t₂.logs := by
  obtain ⟨halike, -⟩ := h
  refine ⟨congrArg String.join (output_telling.texts_eq halike), ?_⟩
  have hlogs (es : List Effect) :
      (es.filter fun e => !e.step?.isSome).filterMap Effect.event? =
        es.filterMap Effect.event? := by
    rw [List.filterMap_filter]
    refine congrArg (List.filterMap · es) (funext fun e => ?_)
    cases e with
    | _ => rfl
  unfold Trace.logs
  rw [← hlogs t₁.effects, ← hlogs t₂.effects]
  exact congrArg _ halike

/-- Texts with the same output are the same, and so are the log entries on the way. -/
theorem captured_eq_of_output {R : α → β → Prop} {t₁ : Trace α} {t₂ : Trace β}
    (h : output.Linked R t₁ t₂) : t₁.captured = t₂.captured := by
  obtain ⟨halike, hrel⟩ := output_telling.captured_linked h
  have hresult := Linked.result_eq ⟨halike, hrel⟩
  -- the log is seen as it is
  have hlogs (es : List Effect) : (es.filter fun e => e.event?.isSome).filter
      (fun e => !e.step?.isSome) = es.filter fun e => e.event?.isSome := by
    refine List.filter_eq_self.2 fun e he => ?_
    cases e with
    | log event => rfl
    | write t => simp [Effect.event?] at he
    | step x => simp [Effect.event?] at he
  have heffects : (t₁.captured.effects).filter (fun e => !e.step?.isSome) =
      (t₂.captured.effects).filter fun e => !e.step?.isSome := halike
  simp only [Trace.captured, hlogs] at heffects hresult ⊢
  rw [heffects, hresult]

end Likeness

end ValueLens
