/-
**The depth limit.**

A render counts the containers that are open around the value at hand.  Under a limit it shows a
container that would be one too many by a mark in place of its contents: in place of the brackets
and what is between them in a dump, and between the brackets in compact mode.

That the count is right, and that the mark stands where it should and nowhere else, is said by a
second walk, which keeps book of the open containers on its own, cuts a container when as many are
open as may be, and knows no limit otherwise.  At every value and inside of every container, before
and after, it compares its book with the count of the state and goes astray if they differ or the
limit is exceeded; both walks are the same whatever going astray means, so that it never happens.

Margins and hex dumps take their indentation from the count.  That a line is indented by as many
units as the limit at most is said by exchanging the unit: nothing else changes in what is written,
and no two margins stand side by side.

If no container is cut, the limit makes no difference.  The walks with and without the limit are
then the same on every amount of fuel; and because a walk without a limit that ends at all ends on
its own fuel, so are the texts.

Main definitions:

* `ValueLens.Scene.unlimited`, `ValueLens.Scene.reindented` — the scene without a limit, and with
  another unit of indentation;
* `ValueLens.Mode.cutMark` — the mark in place of the contents of a container;
* `ValueLens.Walk.supervised` — **the walk that keeps book of the open containers**;
* `ValueLens.Reindented` — texts that differ in the units of margins.

Main results:

* `ValueLens.Walk.supervised_keeps` — the count of a render is the number of open containers;
* `ValueLens.Walk.walk_uncut`, `ValueLens.Scene.present_uncut` — a walk and a render in which no
  container is cut have no use for the limit;
* `ValueLens.depth_limit_exact` — **the depth limit is exact.**
-/
import ValueLens.Proofs.Exhaustion

set_option relaxedAutoImplicit false
set_option autoImplicit false

namespace ValueLens

open Render

/-! ### Scenes without a limit -/

/-- The scene without a depth limit. -/
def Scene.unlimited (s : Scene) : Scene := { s with config := { s.config with maxDepth := 0 } }

/-- The scene with another unit of indentation. -/
def Scene.reindented (s : Scene) (unit : String) : Scene :=
  { s with config := { s.config with indent := unit } }

namespace Walk

variable {s : Scene} {texts : Texts} {visit : Visit} {mode : Mode} {id : NodeId}

theorem chain_unlimited (n : Nat) (chain : Chain) (id : NodeId) :
    Chain.walk s.unlimited n chain id = Chain.walk s n chain id := by
  induction n generalizing chain id with
  | zero => rfl
  | succ n ih =>
      simp only [Chain.walk, ih]
      rfl

/-- What is no container, or a nil one, does not look at the limit. -/
theorem level_unlimited_of_none (h : (s.graph.shape id).bracket? = none) :
    level s.unlimited texts visit mode id = level s texts visit mode id := by
  have hfollow : follow s.unlimited visit mode id = follow s visit mode id := by
    simp only [follow, chain_unlimited]
    rfl
  have hform : form s.unlimited id = form s id := rfl
  rw [level_eq_shown, level_eq_shown, hform]
  cases hs : form s id with
  | sequence q => rcases shape_of_sequence hs with hs | hs <;> simp [hs, Shape.bracket?] at h
  | map es => simp [shape_of_map hs, Shape.bracket?] at h
  | record fds => simp [shape_of_record hs, Shape.bracket?] at h
  | chain =>
      simp only [Form.shown, indirection, hfollow]
      rfl
  | _ => rfl

theorem nest_unlimited {bracket : Mode.Bracket} {inside : Render Unit} {st : RenderState}
    (h : s.config.atLimit st.depth = false) :
    mode.nest s.unlimited id bracket inside st = mode.nest s id bracket inside st := by
  have hno : s.unlimited.config.atLimit st.depth = false := by
    simp [Scene.unlimited, Config.atLimit]
  have hindent : Mode.indent s.unlimited.config = Mode.indent s.config := rfl
  cases mode with
  | dump =>
      simp only [Mode.nest, hindent]
      rw [run_get_bind, run_get_bind, h, hno]
      simp only [Bool.false_eq_true, if_false]
  | compact types details =>
      have hopening : (Render.write bracket.opening st).result = some ((), st) := rfl
      simp only [Mode.nest]
      rw [run_bind_of_some hopening, run_bind_of_some hopening, run_get_bind, run_get_bind, h, hno]

theorem contents_unlimited (shape : Shape) :
    contents s.unlimited texts visit mode shape = contents s texts visit mode shape := by
  cases shape with
  | slice q =>
      cases q with
      | _ => rfl
  | map es =>
      cases es with
      | _ => rfl
  | _ => rfl

end Walk

/-! ### Open containers -/

/-- The mark of the limit, in place of a container in a dump and between its brackets in compact
mode. -/
def Mode.cutMark (limit : Nat) (id : NodeId) (bracket : Mode.Bracket) : Mode → Render Unit
  | .dump => do
      Render.log .trace ("Depth limit " ++ Numeral.decimal limit ++ " reached")
      Render.step (.cut id)
      Render.write "<max depth reached>"
  | .compact _ _ => do
      Render.write bracket.opening
      Render.step (.cut id)
      Render.write "<max>"
      Render.write bracket.closing

namespace Walk

/-- Goes astray unless the depth is the number of open containers and within the limit. -/
def inspect (limit : Nat) (astray : Render Unit) (around : List NodeId) : Render Unit := do
  if (← get).depth = around.length ∧ around.length ≤ limit then pure () else astray

/-- Inspects the depth before and after. -/
def inspected (limit : Nat) (astray : Render Unit) (around : List NodeId) (m : Render Unit) :
    Render Unit := do
  inspect limit astray around
  m
  inspect limit astray around

/-- **The walk that keeps book of the open containers.**  The depth of the state is inspected at
every value and inside of every container, before and after; it decides about nothing.  A container
that is not nil, and whose description does not stand in for it, gets a mark in place of its
contents if as many containers are open around it as the limit allows, and is open around its
contents otherwise.  The text of a key has a book of its own. -/
def supervised (s : Scene) (limit : Nat) (astray : Render Unit) : Nat → List NodeId → Visit
  | 0, _ => fun _ _ => Render.stalled
  | fuel + 1, around => fun mode id =>
      let texts : Texts := fun held => echo (supervised (s.holding held) limit astray fuel [])
      inspected limit astray around (
        match (s.graph.shape id).bracket? with
        | none => level s texts (supervised s limit astray fuel around) mode id
        | some bracket => do
            if ← front s mode id then pure ()
            else if around.length = limit then mode.cutMark limit id bracket
            else
              mode.nest s id bracket (inspected limit astray (id :: around)
                (contents s texts (supervised s limit astray fuel (id :: around)) mode
                  (s.graph.shape id))))

variable {s : Scene} {texts : Texts} {visit : Visit} {mode : Mode} {id : NodeId}

/-- An inspection that finds everything in order. -/
theorem inspect_of_eq {limit : Nat} {astray : Render Unit} {around : List NodeId}
    {st : RenderState} (hdepth : st.depth = around.length) (hle : around.length ≤ limit) :
    inspect limit astray around st = ⟨[], some ((), st)⟩ := by
  unfold inspect
  rw [run_get_bind, if_pos ⟨hdepth, hle⟩]
  rfl

/-- Inspections that find everything in order leave a run as it is. -/
theorem inspected_keeps {limit : Nat} {astray : Render Unit} {around : List NodeId} {b : Bond}
    {f : Frame} {m₁ m₂ : Render Unit} (hdepth : f.depth = around.length)
    (hle : around.length ≤ limit) (h : b.Keeps f m₁ m₂) :
    b.Keeps f (inspected limit astray around m₁) m₂ := by
  rintro st rfl
  have hbefore : inspect limit astray around st = ⟨[], some ((), st)⟩ := inspect_of_eq hdepth hle
  have hafter : (m₁ >>= fun _ => inspect limit astray around) st = m₁ st := by
    have hin_order : (m₁ st >>= fun p => inspect limit astray around p.2) = m₁ st >>= pure := by
      refine Trace.bind_congr ?_
      rintro ⟨⟨⟩, σ⟩ hσ
      have hframe : σ.frame = st.frame := ((h st rfl).2 () σ hσ).2
      exact inspect_of_eq ((congrArg Frame.depth hframe).trans hdepth) hle
    exact hin_order.trans (Trace.bind_pure _)
  have hsame : inspected limit astray around m₁ st = m₁ st := by
    unfold inspected
    rw [run_bind_of_some (a := ()) (by rw [hbefore]), hafter, hbefore]
    rfl
  rw [hsame]
  exact h st rfl

theorem front_keeps {b : Bond} {f : Frame} : b.Keeps f (front s mode id) (front s mode id) :=
  let side : Side := ⟨s, mode, fun _ _ => pure "", fun _ _ => pure ()⟩
  b.congruence.calm.front (a := side) (b := side) rfl rfl rfl fun _ => Bond.step_keeps rfl

theorem cutMark_keeps {b : Bond} {f : Frame} {limit : Nat} {bracket : Mode.Bracket} :
    b.Keeps f (mode.cutMark limit id bracket) (mode.cutMark limit id bracket) := by
  have hwrite (t : String) : b.Keeps f (Render.write t) (Render.write t) :=
    .of_quiet (Quiet.write t)
  cases mode with
  | dump =>
      refine .quiet_bind (Quiet.log _ _) fun _ => ?_
      exact Coupling.seq (Bond.step_keeps rfl) (hwrite _)
  | compact types details =>
      refine Coupling.seq (hwrite _) (Coupling.seq (Bond.step_keeps rfl) ?_)
      exact Coupling.seq (hwrite _) (hwrite _)

/-- The contents of a container, if what is below is in order. -/
theorem contents_keeps {b : Bond} {f : Frame} {texts₁ texts₂ : Texts} {visit₁ visit₂ : Visit}
    {bracket : Mode.Bracket} (hb : (s.graph.shape id).bracket? = some bracket)
    (hecho : s.config.sortKeys = true → s.config.echoKeys = true →
      ∀ key, b.Holds (texts₁ f.held key) (texts₂ f.held key))
    (hvisit : ∀ child g, Below s id f child g →
      b.Keeps g (visit₁ mode child) (visit₂ mode child)) :
    b.Keeps f.deeper (contents s texts₁ visit₁ mode (s.graph.shape id))
      (contents s texts₂ visit₂ mode (s.graph.shape id)) := by
  have calm := b.congruence.calm
  let side₁ : Side := ⟨s, mode, texts₁, visit₁⟩
  let side₂ : Side := ⟨s, mode, texts₂, visit₂⟩
  have fits : b.congruence.coupling.Fits side₁ side₂ := calm.fits rfl rfl
  have hnested {child : NodeId} {g : Frame} (h : Below s id f child g) :
      b.congruence.coupling.Nested side₁ side₂ g child child :=
    calm.nested (a := side₁) (b := side₂) rfl rfl (hvisit child g h)
  have helements {q : Sequence}
      (hs : s.graph.shape id = .array q ∨ s.graph.shape id = .slice (some q)) :
      b.Keeps f.deeper (side₁.elements q) (side₂.elements q) := by
    refine calm.elements (a := side₁) (b := side₂) rfl rfl rfl (fits.spelled_couples ?_)
    exact List.forall₂_same.2 fun child hchild => hnested (.element hs hchild)
  cases hs : s.graph.shape id with
  | array q => exact helements (Or.inl hs)
  | slice q =>
      cases q with
      | none => simp [hs, Shape.bracket?] at hb
      | some q => exact helements (Or.inr hs)
  | map es =>
      cases es with
      | none => simp [hs, Shape.bracket?] at hb
      | some es =>
          refine fits.ordered_couples (arranged_keeps (f := f.deeper) hecho es) fun e he => ?_
          exact ⟨hnested (.key hs he), hnested (.entry hs he)⟩
  | record fds =>
      refine fits.fields_couples (List.forall₂_same.2 fun fd hfd => ⟨rfl, rfl, ?_⟩)
      exact hnested (.field hs hfd)
  | _ => simp [hs, Shape.bracket?] at hb

/-- A container that is not nil is one container more around what is below, and nothing else is. -/
theorem Below.depth_eq {child : NodeId} {f g : Frame} (h : Below s id f child g) :
    g.depth = f.depth + if (s.graph.shape id).bracket?.isSome then 1 else 0 := by
  cases h with
  | held h => simp [h, Shape.bracket?]
  | element h _ =>
      rcases h with h | h
      · simp [h, Shape.bracket?, Frame.deeper]
      · simp [h, Shape.bracket?, Frame.deeper]
  | key h _ => simp [h, Shape.bracket?, Frame.deeper]
  | entry h _ => simp [h, Shape.bracket?, Frame.deeper]
  | field h _ => simp [h, Shape.bracket?, Frame.deeper, Frame.within]
  | behind h _ =>
      generalize s.graph.shape id = shape at h
      cases shape with
      | pointer a target => simp [Shape.bracket?, Frame.along]
      | guarded a content lock => simp [Shape.bracket?, Frame.along]
      | _ => simp [Shape.isIndirection] at h

theorem nest_of_atLimit {bracket : Mode.Bracket} {inside : Render Unit} {st : RenderState}
    (h : s.config.atLimit st.depth = true) :
    mode.nest s id bracket inside st = mode.cutMark s.config.maxDepth id bracket st := by
  cases mode with
  | dump =>
      simp only [Mode.nest, Mode.cutMark]
      rw [run_get_bind, h]
      rfl
  | compact types details =>
      have hopening : (Render.write bracket.opening st).result = some ((), st) := rfl
      simp only [Mode.nest, Mode.cutMark]
      rw [run_bind_of_some hopening, run_bind_of_some hopening, run_get_bind, h]
      rfl

section Limited

variable (hlimit : 0 < s.config.maxDepth)
  (hecho : ¬(s.config.sortKeys = true ∧ s.config.echoKeys = true))

include hlimit in
theorem atLimit_iff (depth : Nat) :
    s.config.atLimit depth = true ↔ s.config.maxDepth ≤ depth := by
  simp only [Config.atLimit, Bool.and_eq_true, bne_iff_ne, decide_eq_true_eq]
  omega

include hlimit hecho

/-- **A container that is not nil**, if what is below is in order: it is cut at the limit, and below
the limit it is one more of the open containers. -/
theorem nest_supervised {astray : Render Unit} {around : List NodeId} {f : Frame}
    {texts₁ texts₂ : Texts} {visit₁ visit₂ : Visit} {bracket : Mode.Bracket}
    (hdepth : f.depth = around.length) (hle : around.length ≤ s.config.maxDepth)
    (hb : (s.graph.shape id).bracket? = some bracket)
    (hvisit : ∀ child g, g.depth = around.length + 1 → around.length + 1 ≤ s.config.maxDepth →
      (Bond.same False).Keeps g (visit₁ mode child) (visit₂ mode child)) :
    (Bond.same False).Keeps f
      (if around.length = s.config.maxDepth then mode.cutMark s.config.maxDepth id bracket
      else
        mode.nest s.unlimited id bracket (inspected s.config.maxDepth astray (id :: around)
          (contents s.unlimited texts₁ visit₁ mode (s.graph.shape id))))
      (mode.nest s id bracket (contents s texts₂ visit₂ mode (s.graph.shape id))) := by
  intro st hst
  have hcount : st.depth = around.length := (congrArg Frame.depth hst).trans hdepth
  by_cases hfull : around.length = s.config.maxDepth
  · have hstop : s.config.atLimit st.depth = true :=
      (atLimit_iff hlimit _).2 (by omega)
    rw [if_pos hfull, nest_of_atLimit hstop]
    exact cutMark_keeps st hst
  · have hgo : s.config.atLimit st.depth = false := by
      rw [Bool.eq_false_iff, ne_eq, atLimit_iff hlimit]
      omega
    have hopen : around.length + 1 ≤ s.config.maxDepth := by omega
    rw [if_neg hfull, contents_unlimited, nest_unlimited hgo]
    have facing : Facing (Bond.same False).congruence ⟨s, mode, texts₁, visit₁⟩
        ⟨s, mode, texts₂, visit₂⟩ := facing_self
    refine facing.nest_keeps (inspected_keeps (congrArg (· + 1) hdepth) hopen ?_) st hst
    refine contents_keeps hb (fun hsort hkeys => absurd ⟨hsort, hkeys⟩ hecho) fun child g h => ?_
    exact hvisit child g (by simpa [hb, hdepth] using h.depth_eq) hopen

/-- **The count of a render is the number of open containers**, and the limit cuts where it should:
the walk under supervision is the walk. -/
theorem supervised_keeps (astray : Render Unit) (n : Nat) (around : List NodeId) (mode : Mode)
    (id : NodeId) {f : Frame} (hdepth : f.depth = around.length)
    (hle : around.length ≤ s.config.maxDepth) :
    (Bond.same False).Keeps f (supervised s.unlimited s.config.maxDepth astray n around mode id)
      (walk s n mode id) := by
  induction n generalizing around id f with
  | zero => exact fun st _ => ⟨⟨rfl, rfl, False.elim⟩, by simp [supervised]⟩
  | succ n ih =>
      refine inspected_keeps hdepth hle ?_
      have hshape : s.unlimited.graph.shape id = s.graph.shape id := rfl
      rw [hshape]
      cases hb : (s.graph.shape id).bracket? with
      | none =>
          simp only
          rw [level_unlimited_of_none hb]
          refine level_keeps (fun child g h => ?_) (fun hsort hkeys => absurd ⟨hsort, hkeys⟩ hecho)
            fun _ a _ => rfl
          exact ih around child (by simpa [hb, hdepth] using h.depth_eq) hle
      | some bracket =>
          have hwalk : walk s (n + 1) mode id = _ := level_of_bracket hb
          rw [hwalk]
          refine Trace.Congruence.Keeps.bind front_keeps fun standsIn => ?_
          refine Trace.Congruence.Keeps.ite (fun _ => ?_) fun _ => ?_
          · exact Trace.Congruence.Keeps.of_quiet (Quiet.pure _)
          · exact nest_supervised hlimit hecho hdepth hle hb fun child g hg hopen =>
              ih (id :: around) child hg hopen

end Limited

end Walk

/-! ### Runs without a cut -/

namespace Walk

variable {s : Scene} {mode : Mode} {id : NodeId}

/-- **The accord of a run and the same run without a limit**: like two runs on fuel of which one has
more, they do not differ, but here the excuse is that a container is cut. -/
def uncut : Accord :=
  { patience with
    Excused := fun es _ => ∃ id, Effect.step (.cut id) ∈ es
    excused_append_left := fun h => h.imp fun _ => List.mem_append_left _
    excused_append_right := fun h => h.imp fun _ => List.mem_append_right _ }

theorem uncut_strict : uncut.Strict where
  near_iff := Iff.rfl
  alike_iff := Iff.rfl

theorem uncut_excused {es : List Effect} {ended : Bool} :
    uncut.Excused es ended ↔ ∃ id, .step (.cut id) ∈ es := Iff.rfl

theorem uncut_fits (s : Scene) (mode : Mode) : uncut.Fits s mode mode :=
  uncut_strict.fits (fun _ => by simp [uncut_excused]) s mode

theorem nest_uncut {bracket : Mode.Bracket} {inside : Render Unit} :
    uncut.Meets (mode.nest s id bracket inside) (mode.nest s.unlimited id bracket inside) := by
  intro st st' hnear
  obtain rfl : st = st' := hnear
  cases hlimit : s.config.atLimit st.depth with
  | false =>
      rw [nest_unlimited hlimit]
      exact uncut_strict.meets_self _ st st rfl
  | true =>
      -- a container that is cut excuses the run
      rw [nest_of_atLimit hlimit]
      refine Or.inl ⟨id, ?_⟩
      cases mode with
      | dump => exact List.mem_cons_of_mem _ (List.mem_cons_self ..)
      | compact types details => exact List.mem_cons_of_mem _ (List.mem_cons_self ..)

theorem level_uncut (texts : Texts) (visit : Visit) (mode : Mode) (id : NodeId) :
    uncut.Meets (level s texts visit mode id) (level s.unlimited texts visit mode id) := by
  cases hb : (s.graph.shape id).bracket? with
  | none =>
      rw [level_unlimited_of_none hb]
      exact uncut_strict.meets_self _
  | some bracket =>
      rw [level_of_bracket hb, level_of_bracket (s := s.unlimited) hb]
      refine Accord.Meets.bind (uncut_strict.meets_self _) fun standsIn => ?_
      exact Accord.Meets.ite (fun _ => Accord.Meets.pure _) fun _ => nest_uncut

/-- **A walk in which no container is cut has no use for the limit.** -/
theorem walk_uncut (hecho : ¬(s.config.sortKeys = true ∧ s.config.echoKeys = true)) (n : Nat)
    (mode : Mode) (id : NodeId) :
    uncut.Meets (walk s n mode id) (walk s.unlimited n mode id) := by
  induction n generalizing id with
  | zero => exact Accord.Meets.stalled
  | succ n ih =>
      have hlevel : uncut.Meets (level s.unlimited (keyTexts s n) (walk s n) mode id)
          (level s.unlimited (keyTexts s n) (walk s.unlimited n) mode id) :=
        (uncut_fits s.unlimited mode).level_meets ih
          (fun held key => Accord.Linked.refl (keyTexts_stepless s n held key)) id
      rw [level_texts_eq hecho (s := s.unlimited) (keyTexts s n) (keyTexts s.unlimited n)
        (walk s.unlimited n)] at hlevel
      exact uncut_strict.trans (level_uncut _ _ _ _) hlevel

end Walk

/-- Two traces that are the same, unless both run out of fuel. -/
def Trace.EndsAs {α : Type} (t₁ t₂ : Trace α) : Prop :=
  t₁ = t₂ ∨ t₁.result = none ∧ t₂.result = none

namespace Trace.EndsAs

variable {α β : Type} {t₁ t₂ : Trace α}

protected theorem bind {k₁ k₂ : α → Trace β} (h : t₁.EndsAs t₂)
    (hk : ∀ a, t₁.result = some a → (k₁ a).EndsAs (k₂ a)) : (t₁ >>= k₁).EndsAs (t₂ >>= k₂) := by
  rcases h with rfl | ⟨h₁, h₂⟩
  · cases hr : t₁.result with
    | none =>
        rw [bind_of_none hr, bind_of_none hr]
        exact Or.inl rfl
    | some a =>
        rw [bind_of_some hr, bind_of_some hr]
        rcases hk a hr with heq | hnone
        · exact Or.inl (by rw [heq])
        · exact Or.inr hnone
  · rw [bind_of_none h₁, bind_of_none h₂]
    exact Or.inr ⟨rfl, rfl⟩

theorem captured_result_eq (h : t₁.EndsAs t₂) : t₁.captured.result = t₂.captured.result := by
  rcases h with rfl | ⟨h₁, h₂⟩
  · rfl
  · simp [captured, h₁, h₂]

end Trace.EndsAs

/-- A trace in which no container is cut. -/
def Trace.Uncut {α : Type} (t : Trace α) : Prop := ∀ id, .cut id ∉ t.steps

theorem Trace.mem_steps {α : Type} {t : Trace α} {x : Step} :
    x ∈ t.steps ↔ .step x ∈ t.effects := by
  simp only [steps, List.mem_filterMap]
  constructor
  · rintro ⟨e, he, hx⟩
    cases e with
    | step y =>
        obtain rfl : y = x := Option.some.inj hx
        exact he
    | _ => simp [Effect.step?] at hx
  · exact fun h => ⟨_, h, rfl⟩

/-- If a sequence is without a cut, so are its parts. -/
theorem Trace.Uncut.of_bind {α β : Type} {t : Trace α} {k : α → Trace β} (h : (t >>= k).Uncut) :
    t.Uncut ∧ ∀ a, t.result = some a → (k a).Uncut := by
  simp only [Uncut, mem_steps] at h ⊢
  cases hr : t.result with
  | none =>
      rw [bind_of_none hr] at h
      exact ⟨h, fun a ha => by simp at ha⟩
  | some a =>
      rw [bind_of_some hr] at h
      refine ⟨fun id hid => h id (List.mem_append_left _ hid), ?_⟩
      rintro _ ⟨⟩ id hid
      exact h id (List.mem_append_right _ hid)

theorem Walk.walk_eq_of_uncut {s : Scene}
    (hecho : ¬(s.config.sortKeys = true ∧ s.config.echoKeys = true)) {n : Nat} {mode : Mode}
    {id : NodeId} (h : (fromStart (walk s n mode id)).Uncut) :
    walk s n mode id {} = walk s.unlimited n mode id {} := by
  refine uncut_strict.eq_of_meets (walk_uncut hecho n mode id) ?_
  rintro ⟨c, hc⟩
  exact h c (Trace.mem_steps.2 (by rwa [fromStart_effects]))

namespace Scene

variable {s : Scene} (hecho : ¬(s.config.sortKeys = true ∧ s.config.echoKeys = true))

include hecho

/-- **A render in which no container is cut has no use for the limit.**  The fuel of the two
differs, but a walk without a limit that ends does so on its own fuel. -/
theorem present_uncut {mode : Mode} {id : NodeId} (h : (s.present mode id).Uncut) :
    (s.present mode id).EndsAs (s.unlimited.present mode id) := by
  have hsame := Walk.walk_eq_of_uncut hecho h
  by_cases hend : Walk.Ends s.unlimited mode s.fuel id {}
  · left
    rw [Walk.present_eq_of_ends (s := s.unlimited) rfl hecho hend]
    exact fromStart_congr hsame
  · right
    have hle : s.unlimited.fuel ≤ s.fuel := Nat.mul_le_mul_left _ (Nat.succ_le_succ (Nat.zero_le _))
    have hnot : ¬Walk.Ends s.unlimited mode s.unlimited.fuel id {} := fun h' => hend (h'.mono hle)
    simp only [Walk.Ends, Bool.not_eq_true, Option.isSome_eq_false_iff, Option.isNone_iff_eq_none]
      at hend hnot
    simp [Scene.present, hsame, hend, hnot]

theorem dump_uncut {roots : List NodeId} (h : (s.dump roots).Uncut) :
    (s.dump roots).EndsAs (s.unlimited.dump roots) := by
  induction roots with
  | nil => exact Or.inl rfl
  | cons id rest ih =>
      cases rest with
      | nil => exact (present_uncut hecho h.of_bind.1).bind fun _ _ => Or.inl rfl
      | cons next rest =>
          refine (present_uncut hecho h.of_bind.1).bind fun u hu => ?_
          have hlines := h.of_bind.2 u hu
          refine .bind (Or.inl rfl) fun v hv => .bind (Or.inl rfl) fun w hw => ih ?_
          exact (hlines.of_bind.2 v hv).of_bind.2 w hw

end Scene

/-! ### Margins -/

/-- **Texts that differ in the units of margins.**  A margin is as many units as the limit at most,
and stands in front of a text that is not empty; the lines of a buffer have a margin each. -/
inductive Reindented (limit : Nat) (unit₁ unit₂ : String) : List String → List String → Prop
  | nil : Reindented limit unit₁ unit₂ [] []
  | text (t : String) {ts₁ ts₂ : List String} (h : Reindented limit unit₁ unit₂ ts₁ ts₂) :
      Reindented limit unit₁ unit₂ (t :: ts₁) (t :: ts₂)
  | margin {depth : Nat} (hdepth : depth ≤ limit) {t : String} (ht : t ≠ "")
      {ts₁ ts₂ : List String} (h : Reindented limit unit₁ unit₂ ts₁ ts₂) :
      Reindented limit unit₁ unit₂ (String.join (List.replicate depth unit₁) :: t :: ts₁)
        (String.join (List.replicate depth unit₂) :: t :: ts₂)
  | buffer {depth : Nat} (hdepth : depth ≤ limit) (bytes : List UInt8) {ts₁ ts₂ : List String}
      (h : Reindented limit unit₁ unit₂ ts₁ ts₂) :
      Reindented limit unit₁ unit₂ (HexDump.indented unit₁ depth bytes :: ts₁)
        (HexDump.indented unit₂ depth bytes :: ts₂)

namespace Reindented

variable {limit : Nat} {unit₁ unit₂ : String} {ts₁ ts₂ us₁ us₂ : List String}

theorem append (h : Reindented limit unit₁ unit₂ ts₁ ts₂)
    (h' : Reindented limit unit₁ unit₂ us₁ us₂) :
    Reindented limit unit₁ unit₂ (ts₁ ++ us₁) (ts₂ ++ us₂) := by
  induction h with
  | nil => exact h'
  | text t _ ih => exact .text t ih
  | margin hdepth ht _ ih => exact .margin hdepth ht ih
  | buffer hdepth bytes _ ih => exact .buffer hdepth bytes ih

/-- What comes after a text that is the same. -/
theorem tail {t : String} (h : Reindented limit unit₁ unit₂ (t :: ts₁) (t :: ts₂)) :
    Reindented limit unit₁ unit₂ ts₁ ts₂ := by
  generalize hus₁ : t :: ts₁ = us₁ at h
  generalize hus₂ : t :: ts₂ = us₂ at h
  cases h with
  | nil => simp at hus₁
  | text u h =>
      rw [(List.cons.inj hus₁).2, (List.cons.inj hus₂).2]
      exact h
  | margin hdepth ht h =>
      rw [(List.cons.inj hus₁).2, (List.cons.inj hus₂).2]
      exact .text _ h
  | buffer hdepth bytes h =>
      rw [(List.cons.inj hus₁).2, (List.cons.inj hus₂).2]
      exact h

end Reindented

/-- **The same writing up to the units of margins.** -/
def Likeness.reindenting (limit : Nat) (unit₁ unit₂ : String) : Likeness where
  Alike es₁ es₂ := Reindented limit unit₁ unit₂ (es₁.filterMap Effect.text?)
    (es₂.filterMap Effect.text?)
  alike_nil := .nil
  alike_append h h' := by
    rw [List.filterMap_append, List.filterMap_append]
    exact h.append h'
  alike_write t := .text t .nil
  alike_log _ := .nil
  alike_step _ _ := .nil

/-- A scene and the scene with another unit of indentation look alike, at depths up to the limit. -/
theorem Scene.kin_reindented {s : Scene} (hlimit : 0 < s.config.maxDepth) (unit : String) :
    Kin (.reindenting s.config.maxDepth s.config.indent unit) id
      (fun a b => a = b ∧ a ≤ s.config.maxDepth) (fun _ _ => True) s (s.reindented unit) where
  config_eq := rfl
  size_eq := rfl
  resembles _ := .refl_of_id _
  typeName_eq _ := rfl
  view_eq := by
    intro id q₁ q₂ h₁ h₂
    obtain rfl : q₁ = q₂ := Option.some.inj (h₁.symm.trans h₂)
    exact Walk.byteView?_eq (fun _ => .refl_of_id _) (fun _ => rfl) rfl rfl q₁
  injective := Function.injective_id
  discreet := Or.inl fun _ => rfl
  deep_zero := ⟨rfl, Nat.zero_le _⟩
  deep_succ := by
    rintro a _ ⟨rfl, -⟩ hopen
    refine ⟨rfl, ?_⟩
    rw [Bool.eq_false_iff, ne_eq, Walk.atLimit_iff hlimit] at hopen
    omega
  deep_pred := by
    rintro a _ ⟨rfl, hle⟩
    exact ⟨rfl, by omega⟩
  deep_limit := by
    rintro a _ ⟨rfl, -⟩
    rfl
  alike_margin := by
    rintro a _ t es₁ es₂ ⟨rfl, hle⟩ ht h₁ h₂ halike
    obtain ⟨ts₁, hts₁⟩ := List.head?_eq_some_iff.1 h₁
    obtain ⟨ts₂, hts₂⟩ := List.head?_eq_some_iff.1 h₂
    have halike' : Reindented _ _ _ (es₁.filterMap Effect.text?) (es₂.filterMap Effect.text?) :=
      halike
    rw [hts₁, hts₂] at halike'
    change Reindented _ _ _ (_ :: es₁.filterMap Effect.text?) (_ :: es₂.filterMap Effect.text?)
    rw [hts₁, hts₂]
    exact .margin hle ht halike'.tail
  alike_buffer := by
    rintro a _ bytes ⟨rfl, hle⟩
    exact .buffer hle bytes .nil
  admits_outlet _ _ := trivial

/-! ### The limit -/

/-- **The depth limit is exact.**  Under a limit, and if keys are not ordered by their compact
texts:

* a walk does what the walk does that keeps book of the open containers, whatever going astray
  means, so that the depth is their number and within the limit, and the mark stands where a
  container that is not nil and has not described itself comes with as many open as the limit
  allows;
* with another unit of indentation it writes the same but for margins, each of as many units as the
  limit at most and in front of something that does not depend on the unit;
* a walk without a cut does the same without the limit, on every amount of fuel;
* and so dumps and compact texts without a cut are the same without the limit. -/
theorem depth_limit_exact {s : Scene} (hlimit : 0 < s.config.maxDepth)
    (hecho : ¬(s.config.sortKeys = true ∧ s.config.echoKeys = true)) :
    (∀ astray n mode id, fromStart (Walk.walk s n mode id) =
      fromStart (Walk.supervised s.unlimited s.config.maxDepth astray n [] mode id)) ∧
    (∀ unit n mode id, Reindented s.config.maxDepth s.config.indent unit
      ((fromStart (Walk.walk s n mode id)).effects.filterMap Effect.text?)
      ((fromStart (Walk.walk (s.reindented unit) n mode id)).effects.filterMap Effect.text?)) ∧
    (∀ n mode id, (fromStart (Walk.walk s n mode id)).Uncut →
      fromStart (Walk.walk s n mode id) = fromStart (Walk.walk s.unlimited n mode id)) ∧
    (∀ roots, (s.dump roots).Uncut →
      (s.dumpText roots).result = (s.unlimited.dumpText roots).result) ∧
    ∀ types details id, (s.present (.compact types details) id).Uncut →
      (s.render types details id).result = (s.unlimited.render types details id).result := by
  refine ⟨?_, ?_, ?_, ?_, ?_⟩
  · intro astray n mode id
    have hkeeps : (Bond.same False).Keeps ({} : RenderState).frame
        (Walk.supervised s.unlimited s.config.maxDepth astray n [] mode id)
        (Walk.walk s n mode id) :=
      Walk.supervised_keeps hlimit hecho astray n [] mode id rfl (Nat.zero_le _)
    exact fromStart_congr (hkeeps {} rfl).1.of_same.symm
  · intro unit n mode id
    have hwalk : (Likeness.reindenting s.config.maxDepth s.config.indent unit).Tied _ _ false
        (Walk.walk s n mode id) (Walk.walk (s.reindented unit) n mode id) :=
      (Scene.kin_reindented hlimit unit).walk_tied (fun _ => rfl) rfl
        (fun hsort hkeys => absurd ⟨hsort, hkeys⟩ hecho) n (Or.inl fun _ => rfl) trivial
    exact (hwalk.fromStart (RenderState.beside_start _ ⟨rfl, Nat.zero_le _⟩)).1
  · exact fun n mode id huncut => fromStart_congr (Walk.walk_eq_of_uncut hecho huncut)
  · exact fun roots huncut => (Scene.dump_uncut hecho huncut).captured_result_eq
  · exact fun types details id huncut => (Scene.present_uncut hecho huncut).captured_result_eq

/-- A crate with two bytes for a label that is found again among its own layers, under a limit. -/
def crate : Scene where
  graph :=
    ⟨#[{ shape := .record [⟨"label", 1, .exported⟩, ⟨"layers", 2, .exported⟩],
         typeName := "Crate" },
       { shape := .slice (some (.ofItems [3, 3])), typeName := "Bytes" },
       { shape := .array (.ofItems [0]), typeName := "Layers" },
       { shape := .uint 72 8, typeName := "u8" }]⟩
  config := { maxDepth := 2 }

/-- The crate is cut where two containers are open around it, and without the limit there is no end
to it; its label has no use for the limit. -/
theorem crate_limit_exact :
    (crate.render true false 0).result =
      some "(Crate)\x7blabel:(Bytes)[72 72] layers:(Layers)[\x7b<max>\x7d]\x7d" ∧
    crate.present .dump 0 = fromStart
      (Walk.supervised crate.unlimited 2 (Render.write "astray") crate.fuel [] .dump 0) ∧
    Reindented 2 " " "\t" ((crate.present .dump 0).effects.filterMap Effect.text?)
      (((crate.reindented "\t").present .dump 0).effects.filterMap Effect.text?) ∧
    (crate.unlimited.dumpText [0]).result = none ∧
    (crate.dumpText [1]).result = (crate.unlimited.dumpText [1]).result := by
  have hlimit : 0 < crate.config.maxDepth := by decide
  have hecho : ¬(crate.config.sortKeys = true ∧ crate.config.echoKeys = true) := by decide
  have hsteps : (crate.dump [1]).steps = [.visited 1 .absent, .entered 1] := by decide +kernel
  have huncut : (crate.dump [1]).Uncut := by
    intro id hid
    simp [hsteps] at hid
  -- a walk that ended without the limit would end on a level for each point
  have hendless : ¬Walk.Ends crate.unlimited .dump crate.unlimited.fuel 0 {} := by
    intro hend
    have hpoints := Walk.ends_points_of_ends (s := crate.unlimited) rfl hecho hend
    revert hpoints
    unfold Walk.Ends
    decide +kernel
  refine ⟨by decide +kernel, ?_, ?_, ?_, ?_⟩
  · exact (depth_limit_exact hlimit hecho).1 _ crate.fuel .dump 0
  · exact (depth_limit_exact hlimit hecho).2.1 "\t" crate.fuel .dump 0
  · rw [← Option.not_isSome_iff_eq_none, Scene.dumpText_isSome_iff]
    exact fun hends => hendless (hends 0 (by simp))
  · exact (depth_limit_exact hlimit hecho).2.2.2.1 [1] huncut

end ValueLens
