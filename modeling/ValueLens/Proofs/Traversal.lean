/-
**Both modes take the same walk.**

A dump and a compact text look different, but they come from the same traversal of the graph.  With
the texts taken out, what remains of a render is the sequence of its events: the values visited and
what they answered, the containers entered or cut by the depth limit, the ends of chains, and all
that was logged, in one order.  A dump has the events of a compact text, with a line in the log
before every container that the depth limit cuts.

There is one exception.  A dump shows a sequence of bytes as a buffer and does not visit its
elements.  So the result is about dumps that show none: no sequence that they enter has a view as
bytes.

Main definitions:

* `ValueLens.Trace.events` — all effects of a run but the texts;
* `ValueLens.Config.announced` — an event with what a dump logs before it;
* `ValueLens.Render.Mute` — computations that do nothing but write;
* `ValueLens.Walk.traversal` — the accord of a dump and a compact text.

Main results:

* `ValueLens.Walk.traversal_fits` — dump mode and compact mode fit the accord;
* `ValueLens.Scene.modes_share_traversal` — **the events of a dump are those of a compact text**.
-/
import ValueLens.Proofs.Accord

set_option relaxedAutoImplicit false
set_option autoImplicit false

namespace ValueLens

open Render

/-! ### Events -/

/-- All effects of a run but the texts. -/
def Effect.isEvent (e : Effect) : Bool := e.text?.isNone

/-- **The events of a run**: steps of the walk and entries of the log, in one order. -/
def Trace.events {α : Type} (m : Trace α) : List Effect := m.effects.filter Effect.isEvent

/-- The steps of a run are among its events. -/
theorem Trace.steps_events {α : Type} (m : Trace α) :
    m.events.filterMap Effect.step? = m.steps := by
  rw [events, steps, List.filterMap_filter]
  refine congrArg (List.filterMap · m.effects) (funext fun e => ?_)
  cases e with
  | _ => rfl

/-- What a run logs is among its events. -/
theorem Trace.logs_events {α : Type} (m : Trace α) :
    m.events.filterMap Effect.event? = m.logs := by
  rw [events, logs, List.filterMap_filter]
  refine congrArg (List.filterMap · m.effects) (funext fun e => ?_)
  cases e with
  | _ => rfl

namespace Config

/-- What a dump logs where the depth limit cuts a container. -/
def depthNotice (c : Config) : LogEvent :=
  ⟨.trace, "Depth limit " ++ Numeral.decimal c.maxDepth ++ " reached"⟩

/-- **An event with what a dump logs before it.** -/
def announced (c : Config) : Effect → List Effect
  | .step (.cut id) => [.log c.depthNotice, .step (.cut id)]
  | e => [e]

theorem announced_of_step?_none (c : Config) {e : Effect} (h : e.step? = none) :
    c.announced e = [e] := by
  cases e with
  | step e => simp [Effect.step?] at h
  | _ => rfl

theorem flatMap_announced_of_stepless (c : Config) {es : List Effect}
    (h : ∀ e ∈ es, e.step? = none) : es.flatMap c.announced = es := by
  induction es with
  | nil => rfl
  | cons e es ih =>
      rw [List.flatMap_cons, c.announced_of_step?_none (h e (by simp)),
        ih fun e' he' => h e' (by simp [he'])]
      rfl

/-- Announcing adds no step. -/
theorem filterMap_step?_announced (c : Config) (es : List Effect) :
    (es.flatMap c.announced).filterMap Effect.step? = es.filterMap Effect.step? := by
  induction es with
  | nil => rfl
  | cons e es ih =>
      rw [List.flatMap_cons, List.filterMap_append, ih]
      cases e with
      | step e =>
          cases e with
          | _ => rfl
      | _ => rfl

/-- Announcing adds nothing to the log but notices of the depth limit. -/
theorem filter_logs_announced (c : Config) (es : List Effect) :
    ((es.flatMap c.announced).filterMap Effect.event?).filter (· ≠ c.depthNotice) =
      (es.filterMap Effect.event?).filter (· ≠ c.depthNotice) := by
  induction es with
  | nil => rfl
  | cons e es ih =>
      have hhead : ((c.announced e).filterMap Effect.event?).filter (· ≠ c.depthNotice) =
          ([e].filterMap Effect.event?).filter (· ≠ c.depthNotice) := by
        cases e with
        | step e =>
            cases e with
            | cut id => simp [announced, Effect.event?, List.filterMap_cons]
            | _ => rfl
        | _ => rfl
      rw [List.flatMap_cons, List.filterMap_append, List.filter_append, ih, hhead,
        ← List.filter_append, ← List.filterMap_append]
      rfl

end Config

/-! ### Mute computations -/

namespace Render

variable {α β : Type}

/-- **A computation that does nothing but write**, apart from the flags it moves. -/
def Mute (m : Render α) : Prop :=
  ∀ st, ∃ (texts : List String) (a : α) (σ : RenderState),
    m st = ⟨texts.map .write, some (a, σ)⟩ ∧ σ.frame = st.frame

namespace Mute

protected theorem pure (a : α) : Mute (pure a : Render α) :=
  fun st => ⟨[], a, st, rfl, rfl⟩

protected theorem get : Mute (get : Render RenderState) :=
  fun st => ⟨[], st, st, rfl, rfl⟩

theorem write (t : String) : Mute (Render.write t) :=
  fun st => ⟨[t], (), st, rfl, rfl⟩

theorem setSkipType (b : Bool) : Mute (Render.setSkipType b) :=
  fun st => ⟨[], (), { st with skipType := b }, rfl, rfl⟩

theorem setSkipIndent (b : Bool) : Mute (Render.setSkipIndent b) :=
  fun st => ⟨[], (), { st with skipIndent := b }, rfl, rfl⟩

protected theorem bind {m : Render α} {k : α → Render β} (hm : Mute m) (hk : ∀ a, Mute (k a)) :
    Mute (m >>= k) := by
  intro st
  obtain ⟨texts, a, σ, hmst, hσ⟩ := hm st
  obtain ⟨texts', b, τ, hkσ, hτ⟩ := hk a σ
  have hr : (m st).result = some (a, σ) := by rw [hmst]
  refine ⟨texts ++ texts', b, τ, ?_, hτ.trans hσ⟩
  rw [run_bind_of_some hr, hmst, hkσ, List.map_append]

protected theorem ite {c : Prop} [Decidable c] {m n : Render α} (hm : Mute m) (hn : Mute n) :
    Mute (if c then m else n) := by
  split
  · exact hm
  · exact hn

end Mute

end Render

namespace Mode

theorem mute_indent (c : Config) : Mute (indent c) := by
  intro st
  unfold indent
  rw [run_get_bind]
  split
  · exact ⟨[], (), _, rfl, rfl⟩
  · exact Mute.write _ st

/-- **What a mode writes around values is mute.** -/
theorem Ornament.mute {s : Scene} {o : Mode → Render Unit} (h : Ornament s o) (mode : Mode) :
    Mute (o mode) := by
  cases h with
  | header n =>
      cases mode with
      | dump =>
          have hrest : Mute (do
              Render.setSkipType false
              Render.write (lengthsOf s.config n.shape)) :=
            Mute.bind (Mute.setSkipType _) fun _ => Mute.write _
          refine Mute.bind Mute.get fun st => Mute.ite ?_ hrest
          exact Mute.bind (mute_indent _) fun _ => Mute.bind (Mute.write _) fun _ => hrest
      | compact types details =>
          refine Mute.bind Mute.get fun st => Mute.ite ?_ (Mute.setSkipType _)
          exact Mute.bind (Mute.write _) fun _ => Mute.setSkipType _
  | invalid =>
      cases mode with
      | dump =>
          have hrest : Mute (do
              Render.setSkipType false
              Render.write invalidMark) :=
            Mute.bind (Mute.setSkipType _) fun _ => Mute.write _
          refine Mute.bind Mute.get fun st => Mute.ite ?_ hrest
          exact Mute.bind (mute_indent _) fun _ => hrest
      | compact types details => exact Mute.write _
  | text t => exact Mute.write _
  | divider => exact Mute.write _
  | terminator => exact Mute.write _
  | label name =>
      cases mode with
      | dump =>
          refine Mute.bind (mute_indent _) fun _ => ?_
          exact Mute.bind (Mute.write _) fun _ => Mute.setSkipIndent _
      | compact types details => exact Mute.ite (Mute.write _) (Mute.pure _)
  | keyMark =>
      cases mode with
      | dump => exact Mute.bind (Mute.write _) fun _ => Mute.setSkipIndent _
      | compact types details => exact Mute.write _
  | beginPart =>
      cases mode with
      | dump => exact Mute.pure _
      | compact types details => exact Mute.setSkipType _
  | beginNested shape =>
      cases mode with
      | dump => exact Mute.pure _
      | compact types details => exact Mute.ite (Mute.setSkipType _) (Mute.pure _)
  | chainHeader chain link =>
      cases mode with
      | dump =>
          refine Mute.bind (Mute.write _) fun _ => Mute.ite ?_ (Mute.write _)
          exact Mute.bind (Mute.write _) fun _ => Mute.write _
      | compact types details =>
          have hrest : Mute (if details = true then Render.write (addresses chain.addresses)
              else pure ()) :=
            Mute.ite (Mute.write _) (Mute.pure _)
          refine Mute.bind Mute.get fun st => Mute.ite ?_ ?_
          · exact Mute.bind (Mute.write _) fun _ => hrest
          · exact Mute.bind (Mute.write _) fun _ => hrest
  | endingMark ending => exact Mute.write _
  | chainFooter =>
      cases mode with
      | dump => exact Mute.write _
      | compact types details => exact Mute.pure _

end Mode

/-! ### The accord of a dump and a compact text -/

namespace Walk

/-- **A sequence that a dump shows as a buffer.** -/
def ShownAsBytes (s : Scene) (id : NodeId) : Prop :=
  ∃ q, (s.graph.shape id = .array q ∨ s.graph.shape id = .slice (some q)) ∧
    (byteView? s q).isSome = true

/-- **The accord of a dump and a compact text**: the same events up to the notices of the depth
limit, unless the dump enters a sequence of bytes. -/
def traversal (s : Scene) : Accord where
  Near a b := a.frame = b.frame
  Alike es₁ es₂ :=
    es₁.filter Effect.isEvent = (es₂.filter Effect.isEvent).flatMap s.config.announced
  Excused es _ := ∃ id, .step (.entered id) ∈ es ∧ ShownAsBytes s id
  near_frame h := h
  near_change h hchange := hchange _ _ h
  alike_append h h' := by simp only [List.filter_append, List.flatMap_append, h, h']
  alike_stepless h := by
    rw [s.config.flatMap_announced_of_stepless]
    intro e he
    exact h e (List.mem_filter.1 he).1
  alike_step := by
    intro e h
    cases e with
    | cut id => exact absurd rfl (h id)
    | _ => rfl
  excused_append_left := by
    rintro es fs ended ⟨id, hmem, hbytes⟩
    exact ⟨id, List.mem_append_left _ hmem, hbytes⟩
  excused_append_right := by
    rintro es fs ended ⟨id, hmem, hbytes⟩
    exact ⟨id, List.mem_append_right _ hmem, hbytes⟩

section Lockstep

variable {s : Scene} {α : Type}

theorem filter_isEvent_write (texts : List String) :
    (texts.map Effect.write).filter Effect.isEvent = [] := by
  simp [Effect.isEvent, Effect.text?]

/-- What is mute in one run goes unnoticed. -/
theorem mute_meets {m₁ m₂ : Render Unit} (h₁ : Mute m₁) (h₂ : Mute m₂) :
    (traversal s).Meets m₁ m₂ := by
  intro st₁ st₂ hnear
  obtain ⟨texts₁, ⟨⟩, σ₁, hm₁, hσ₁⟩ := h₁ st₁
  obtain ⟨texts₂, ⟨⟩, σ₂, hm₂, hσ₂⟩ := h₂ st₂
  rw [hm₁, hm₂]
  refine Or.inr ⟨?_, .some ⟨rfl, hσ₁.trans (hnear.trans hσ₂.symm)⟩⟩
  simp only [traversal, filter_isEvent_write, List.flatMap_nil]

theorem mute_bind_meets {m₁ m₂ : Render Unit} {k₁ k₂ : Unit → Render α} (h₁ : Mute m₁)
    (h₂ : Mute m₂) (hk : (traversal s).Meets (k₁ ()) (k₂ ())) :
    (traversal s).Meets (m₁ >>= k₁) (m₂ >>= k₂) :=
  Accord.Meets.bind (mute_meets h₁ h₂) fun _ => hk

theorem mute_left {m : Render Unit} {k₁ : Unit → Render α} {m₂ : Render α} (h : Mute m)
    (hk : (traversal s).Meets (k₁ ()) m₂) : (traversal s).Meets (m >>= k₁) m₂ := by
  have hall : (traversal s).Meets (m >>= k₁) (pure () >>= fun _ => m₂) :=
    mute_bind_meets h (Mute.pure ()) hk
  simpa only [pure_bind] using hall

theorem mute_right {m : Render Unit} {m₁ : Render α} {k₂ : Unit → Render α} (h : Mute m)
    (hk : (traversal s).Meets m₁ (k₂ ())) : (traversal s).Meets m₁ (m >>= k₂) := by
  have hall : (traversal s).Meets (pure () >>= fun _ => m₁) (m >>= k₂) :=
    mute_bind_meets (Mute.pure ()) h hk
  simpa only [pure_bind] using hall

theorem get_right {m₁ : Render α} {k₂ : RenderState → Render α}
    (hk : ∀ st, (traversal s).Meets m₁ (k₂ st)) : (traversal s).Meets m₁ (get >>= k₂) := by
  intro st₁ st₂ hnear
  rw [run_get_bind]
  exact hk st₂ st₁ st₂ hnear

/-- A container: the depth is that of the frame, so the limit cuts it in both runs or in none. -/
theorem nest_meets {id : NodeId} {bracket : Mode.Bracket} {inside₁ inside₂ : Render Unit}
    {types details : Bool}
    (h : (traversal s).Excused [.step (.entered id)] true ∨ (traversal s).Meets inside₁ inside₂) :
    (traversal s).Meets (Mode.nest s id bracket inside₁ .dump)
      (Mode.nest s id bracket inside₂ (.compact types details)) := by
  have hdepth (up : Nat → Nat) : (traversal s).Meets
      (modify fun st => { st with depth := up st.depth } : Render PUnit)
      (modify fun st => { st with depth := up st.depth }) := by
    refine Accord.Meets.modify fun x y hxy => ?_
    simp only [RenderState.frame, Frame.mk.injEq] at hxy ⊢
    exact ⟨hxy.1, by rw [hxy.2.1], hxy.2.2⟩
  simp only [Mode.nest]
  refine mute_right (Mute.write _) ?_
  refine Accord.Meets.get_bind fun st₁ st₂ hnear => ?_
  have hsame : st₁.depth = st₂.depth := congrArg Frame.depth hnear
  rw [hsame]
  refine Accord.Meets.ite (fun _ => ?_) fun _ => ?_
  · -- the notice of the limit stands in the dump alone
    intro τ₁ τ₂ hτ
    exact Or.inr ⟨rfl, .some ⟨rfl, hτ⟩⟩
  · rcases h with hexcused | hinside
    · exact Accord.Meets.of_excused hexcused
    · refine Accord.Meets.bind (Accord.Meets.step rfl) fun _ => ?_
      refine mute_left (Mute.write _) ?_
      refine Accord.Meets.bind ?_ fun _ => mute_meets ?_ (Mute.write _)
      · refine Accord.Meets.bind (hdepth (· + 1)) fun _ => ?_
        exact Accord.Meets.bind hinside fun _ => hdepth (· - 1)
      · exact Mute.bind (Mode.mute_indent _) fun _ => Mute.write _

/-- At a nil pointer a dump walks a chain that ends at once, which compact mode may cut short. -/
theorem chain_meets {id : NodeId} {visit₁ visit₂ : Visit} {types details : Bool}
    (hfollow : (traversal s).Meets (follow s visit₁ .dump id)
      (follow s visit₂ (.compact types details) id)) :
    (traversal s).Meets
      (do if ← Mode.beginChain s.config (s.graph.shape id) .dump then follow s visit₁ .dump id)
      (do if ← Mode.beginChain s.config (s.graph.shape id) (.compact types details) then
            follow s visit₂ (.compact types details) id) := by
  have hdump : (do if ← Mode.beginChain s.config (s.graph.shape id) .dump then
      follow s visit₁ .dump id) = (do Mode.indent s.config; follow s visit₁ .dump id) := by
    simp [Mode.beginChain]
  rw [hdump]
  refine mute_left (Mode.mute_indent _) ?_
  simp only [Mode.beginChain]
  split
  · next a hs =>
      rw [bind_assoc]
      refine get_right fun st => ?_
      split
      · -- the shortcut: one step, and the chain of the dump takes the same one
        have hwalk : Chain.walk s (Chain.fuel s.graph) {} id =
            pure ({}, .nil (s.graph.typeName id) true) := by
          have hnode : (s.graph.node id).shape = .pointer a none := hs
          simp only [Chain.fuel, Chain.walk, hnode]
          rfl
        have hfollow : follow s visit₁ .dump id = (do
            Mode.chainHeader s {} (.nil (s.graph.typeName id) true) .dump
            Render.step (.ended .nil)
            Render.write Mode.nilMark
            Render.write ")"
            modify fun st => st.leave []) := by
          simp only [follow, hwalk, pure_bind, finish, Link.ending?, bind_assoc, Mode.endingMark,
            Mode.chainFooter]
        rw [hfollow]
        simp only [bind_assoc, pure_bind, Bool.false_eq_true, if_false]
        refine mute_left ((Mode.Ornament.chainHeader _ _).mute .dump) ?_
        refine mute_right (Mute.setSkipType _) ?_
        refine Accord.Meets.bind (Accord.Meets.step rfl) fun _ => ?_
        refine mute_meets (Mute.bind (Mute.write _) fun _ => ?_)
          (Mute.bind (Mute.write _) fun _ => Mute.pure _)
        refine Mute.bind (Mute.write _) fun _ => ?_
        exact fun st => ⟨[], (), st, rfl, rfl⟩
      · simp only [pure_bind, if_true]
        exact hfollow
  · simp only [pure_bind, if_true]
    exact hfollow

/-- **Dump mode and compact mode fit the accord.** -/
theorem traversal_fits (s : Scene) (types details : Bool) :
    (traversal s).Fits s .dump (.compact types details) where
  ornament h := mute_meets (h.mute _) (h.mute _)
  nest h := nest_meets h
  chain _ h := chain_meets h
  elements := by
    intro id q visit₁ visit₂ hexcused hq h
    have hbytes : byteView? s q = none := by
      rw [← Option.not_isSome_iff_eq_none]
      intro hsome
      exact hexcused ⟨id, by simp, q, hq, hsome⟩
    simp only [elements, hbytes]
    exact h

/-- The two walks meet the accord. -/
theorem walk_meets_traversal (s : Scene) (types details : Bool) (n : Nat) (id : NodeId) :
    (traversal s).Meets (walk s n .dump id) (walk s n (.compact types details) id) := by
  induction n generalizing id with
  | zero => exact Accord.Meets.stalled
  | succ n ih =>
      refine (traversal_fits s types details).level_meets ih ?_ id
      exact fun held key => Accord.Linked.refl (keyTexts_stepless s n held key)

end Lockstep

end Walk

/-! ### Renders -/

namespace Scene

/-- **The events of a dump are those of a compact text.**  If no sequence that the dump enters is
shown as bytes, both modes take the same steps in the same order and come to an end or not together;
with the log, their events are the same but for a notice in the dump before every container that the
depth limit cuts. -/
theorem modes_share_traversal (s : Scene) (types details : Bool) (id : NodeId)
    (hbytes : ∀ v q, Step.entered v ∈ (s.present .dump id).steps →
      s.graph.shape v = .array q ∨ s.graph.shape v = .slice (some q) →
      Walk.byteView? s q = none) :
    (s.present .dump id).steps = (s.present (.compact types details) id).steps ∧
      (s.present .dump id).result = (s.present (.compact types details) id).result ∧
      (s.present .dump id).events =
        (s.present (.compact types details) id).events.flatMap s.config.announced ∧
      (s.present .dump id).logs.filter (· ≠ s.config.depthNotice) =
        (s.present (.compact types details) id).logs.filter (· ≠ s.config.depthNotice) := by
  have hlinked := Walk.walk_meets_traversal s types details s.fuel id {} {} rfl
  rcases hlinked with ⟨v, hentered, q, hq, hsome⟩ | ⟨halike, hrel⟩
  · -- a sequence that the dump shows as bytes is ruled out
    have hstep : Step.entered v ∈ (s.present .dump id).steps := by
      refine List.mem_filterMap.2 ⟨.step (.entered v), ?_, rfl⟩
      rw [present, fromStart_effects]
      exact hentered
    rw [hbytes v q hstep hq] at hsome
    exact absurd hsome (by simp)
  · have hevents : (s.present .dump id).events =
        (s.present (.compact types details) id).events.flatMap s.config.announced := by
      simp only [Trace.events, present, fromStart_effects]
      exact halike
    have hresult :
        (s.present .dump id).result = (s.present (.compact types details) id).result := by
      simp only [present, fromStart_result]
      -- there is but one value to give, so ending together is ending alike
      generalize (Walk.walk s s.fuel .dump id {}).result = r₁ at hrel
      generalize (Walk.walk s s.fuel (.compact types details) id {}).result = r₂ at hrel
      cases hrel with
      | none => rfl
      | some h => exact congrArg some h.1
    refine ⟨?_, hresult, hevents, ?_⟩
    · rw [← Trace.steps_events, ← Trace.steps_events, hevents, s.config.filterMap_step?_announced]
    · rw [← Trace.logs_events, ← Trace.logs_events, hevents, s.config.filter_logs_announced]

/-- A record that leads back to itself, with an array of a nil pointer, at most two levels deep. -/
def ring : Scene where
  graph := ⟨#[
    { shape := .record [⟨"next", 1, .exported⟩, ⟨"rest", 2, .exported⟩], typeName := "Node" },
    { shape := .pointer 0x10 (some 0), typeName := "Link" },
    { shape := .array (.ofItems [3]), typeName := "Rest" },
    { shape := .pointer 0 none, typeName := "Link" }]⟩
  config := { maxDepth := 2 }

/-- The steps of both modes, with a cycle, a container that is cut and the shortcut of a nil
pointer; the notice of the depth limit is in the log of the dump alone. -/
theorem ring_shares_traversal :
    (ring.present .dump 0).steps = (ring.present (.compact true true) 0).steps ∧
      (ring.present (.compact true true) 0).steps =
        [.visited 0 .absent, .entered 0, .reached 0, .visited 0 .absent, .entered 0,
          .ended (.cycle 0x10), .visited 2 .absent, .cut 2, .visited 2 .absent, .entered 2,
          .ended .nil] ∧
      (ring.present (.compact true true) 0).logs = [⟨.trace, "Cycle detected at 0x10"⟩] ∧
      (ring.present .dump 0).logs =
        [⟨.trace, "Cycle detected at 0x10"⟩, ⟨.trace, "Depth limit 2 reached"⟩] := by
  have hdump : (ring.present .dump 0).steps =
      [.visited 0 .absent, .entered 0, .reached 0, .visited 0 .absent, .entered 0,
        .ended (.cycle 0x10), .visited 2 .absent, .cut 2, .visited 2 .absent, .entered 2,
        .ended .nil] := by decide +kernel
  have hrecord : ring.graph.shape 0 =
      .record [⟨"next", 1, .exported⟩, ⟨"rest", 2, .exported⟩] := rfl
  have harray : ring.graph.shape 2 = .array (.ofItems [3]) := rfl
  have hshare := modes_share_traversal ring true true 0 (by
    intro v q hv hq
    have hentered : v = 0 ∨ v = 2 := by simpa [hdump] using hv
    rcases hentered with rfl | rfl
    · simp [hrecord] at hq
    · obtain rfl : Sequence.ofItems [3] = q := by simpa [harray] using hq
      rfl)
  exact ⟨hshare.1, hshare.1.symm.trans hdump, by decide +kernel, by decide +kernel⟩

end Scene

end ValueLens
