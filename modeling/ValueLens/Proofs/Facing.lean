/-
**Levels that look alike.**

Two walks of one graph, or of two graphs with the same shapes, take the same way; so do the walks of
two scenes that use answers differently or present the entries of maps in another order.  What such
walks do is compared level by level: what is asked of two levels follows from what is asked below
them, of the fronts of their values and of the order of entries.

What is below a value, and in which frame, is said once, by the relation `ValueLens.Walk.Below`:
what a holder holds is seen with the frame of the holder, what is in a container is one container
deeper, and what an indirection leads to is seen behind the links of its chain and while the locks
of the chain are held.

Main definitions:

* `ValueLens.Walk.Below` — what is below a value, and the frame in which it is seen;
* `ValueLens.Walk.Uncut` — what a container has inside comes to be shown;
* `ValueLens.Walk.Facing` — two sides that look alike.

Main results:

* `ValueLens.Walk.Facing.level_keeps` — **the rule of a level**;
* `ValueLens.Walk.Facing.follow_keeps` — a chain gives back the path it found.
-/
import ValueLens.Proofs.Congruence

set_option relaxedAutoImplicit false
set_option autoImplicit false

namespace ValueLens

open Render

/-! ### What is below a value -/

namespace Walk

/-- **What is below a value, and the frame in which it is seen.** -/
inductive Below (s : Scene) (id : NodeId) (f : Frame) : NodeId → Frame → Prop
  | held {content : NodeId} (h : s.graph.shape id = .holder (some content)) :
      Below s id f content f
  | element {q : Sequence} {child : NodeId}
      (h : s.graph.shape id = .array q ∨ s.graph.shape id = .slice (some q))
      (hchild : child ∈ q.items) : Below s id f child f.deeper
  | key {es : List Entry} {e : Entry} (h : s.graph.shape id = .map (some es)) (he : e ∈ es) :
      Below s id f e.key f.deeper
  | entry {es : List Entry} {e : Entry} (h : s.graph.shape id = .map (some es)) (he : e ∈ es) :
      Below s id f e.value f.deeper
  | field {fds : List Field} {fd : Field} (h : s.graph.shape id = .record fds) (hfd : fd ∈ fds) :
      Below s id f fd.value (f.deeper.within fd)
  | behind {v : NodeId} (h : (s.graph.shape id).isIndirection s.config = true)
      (hchain : Chain.Follows s f.path id (Chain.links s id) (Chain.links s id) (.value v)) :
      Below s id f v (f.along (Chain.links s id) (Chain.locksBehind s id))

/-- **What a container has inside comes to be shown**: the depth limit does not cut it off, and it
is not dumped as bytes. -/
def Uncut (s : Scene) (mode : Mode) (id : NodeId) (f : Frame) : Prop :=
  match form s id with
  | .sequence q => s.config.atLimit f.depth = false ∧ (mode = .dump → byteView? s q = none)
  | .map _ => s.config.atLimit f.depth = false
  | .record _ => s.config.atLimit f.depth = false
  | _ => True

/-! ### The rule of a level -/

/-- **Two sides that look alike**: they lay values out in the same way, walk the same chains and
take the same steps.  What they ask of values may differ, and the entries of maps. -/
structure Facing (C : Trace.Congruence) (a b : Side) : Prop where
  mode : a.mode = b.mode
  indent : a.scene.config.indent = b.scene.config.indent
  limit : a.scene.config.maxDepth = b.scene.config.maxDepth
  forms : ∀ id, form b.scene id = form a.scene id ∨
    ∃ es es', form a.scene id = .map es ∧ form b.scene id = .map es'
  holder : ∀ id, (a.scene.graph.shape id).isHolder = (b.scene.graph.shape id).isHolder
  view : ∀ q, byteView? a.scene q = byteView? b.scene q
  indirection : ∀ id, form a.scene id = .chain → a.scene.graph.shape id = b.scene.graph.shape id
  chain : ∀ n chain id, Chain.walk a.scene n chain id = Chain.walk b.scene n chain id
  fuel : Chain.fuel a.scene.graph = Chain.fuel b.scene.graph
  header : ∀ chain link,
    a.mode.chainHeader a.scene chain link = b.mode.chainHeader b.scene chain link
  step : ∀ e, (∀ id answer, e = .visited id answer → answer = .notAsked) →
    (Effect.step e).closesCycle = false → C.Rel (Trace.step e) (Trace.step e)

/-- At the depth limit it does not matter what is inside. -/
theorem nest_run_of_atLimit {s : Scene} {st : RenderState} (h : s.config.atLimit st.depth = true)
    (mode : Mode) (id : NodeId) (bracket : Mode.Bracket) (inside₁ inside₂ : Render Unit) :
    mode.nest s id bracket inside₁ st = mode.nest s id bracket inside₂ st := by
  cases mode with
  | dump => simp only [Mode.nest, run_get_bind, h, if_true]
  | compact types details =>
      simp only [Mode.nest]
      rw [run_bind_of_some (σ := st) (a := ()) rfl, run_bind_of_some (σ := st) (a := ()) rfl]
      simp only [run_get_bind, h, if_true]

namespace Facing

variable {C : Trace.Congruence} {a b : Side} {f : Frame} {id : NodeId} (h : Facing C a b)

include h

theorem nest_keeps {bracket : Mode.Bracket} {inside₁ inside₂ : Render Unit}
    (hinside : C.Keeps f.deeper inside₁ inside₂) :
    C.Keeps f (a.nest id bracket inside₁) (b.nest id bracket inside₂) := by
  have hcut : C.Rel (Trace.step (.cut id)) (Trace.step (.cut id)) := h.step _ (by simp) rfl
  have hentered : C.Rel (Trace.step (.entered id)) (Trace.step (.entered id)) :=
    h.step _ (by simp) rfl
  unfold Side.nest
  rw [h.mode]
  exact C.calm.nest h.indent h.limit (Trace.Congruence.Keeps.step hcut)
    (Trace.Congruence.Keeps.step hentered) (Trace.Congruence.deeper_keeps hinside) b.mode

theorem nest_keeps_of_atLimit (hlimit : a.scene.config.atLimit f.depth = true)
    {bracket : Mode.Bracket} (inside₁ inside₂ : Render Unit) :
    C.Keeps f (a.nest id bracket inside₁) (b.nest id bracket inside₂) := by
  intro st hst
  have hdepth : st.depth = f.depth := (Frame.fits_iff.1 hst).2.1
  rw [← hdepth] at hlimit
  have hlimit' : b.scene.config.atLimit st.depth = true := by
    simpa only [Config.atLimit, h.limit] using hlimit
  rw [Side.nest, Side.nest, nest_run_of_atLimit hlimit _ _ _ _ (pure ()),
    nest_run_of_atLimit hlimit' _ _ _ _ (pure ())]
  exact h.nest_keeps (.of_quiet (Quiet.pure _)) st hst

/-- An invalid value is marked alike. -/
theorem invalid_keeps : C.Keeps f (a.invalid id) (b.invalid id) := by
  have hmark : a.mode.invalid a.scene.config = b.mode.invalid b.scene.config := by
    rw [h.mode]
    cases b.mode with
    | dump => simp only [Mode.invalid, Mode.indent_congr h.indent]
    | compact types details => rfl
  unfold Side.invalid
  rw [hmark]
  exact Coupling.seq (Trace.Congruence.Keeps.step (h.step _ (by simp) rfl))
    (Trace.Congruence.Keeps.of_quiet (Mode.quiet_invalid _ _))

/-- A container is shown alike if what is inside is, as far as the depth limit lets it be seen. -/
theorem fronted_nest_keeps (hfront : C.Keeps f (a.front id) (b.front id)) {bracket : Mode.Bracket}
    {inside₁ inside₂ : Render Unit}
    (hinside : a.scene.config.atLimit f.depth = false → C.Keeps f.deeper inside₁ inside₂) :
    C.Keeps f (fronted a.scene a.mode id (a.nest id bracket inside₁))
      (fronted b.scene b.mode id (b.nest id bracket inside₂)) := by
  refine Coupling.fronted_couples hfront ?_
  cases hlimit : a.scene.config.atLimit f.depth with
  | true => exact h.nest_keeps_of_atLimit hlimit _ _
  | false => exact h.nest_keeps (hinside hlimit)

variable
  (hvisit : ∀ child g, Uncut a.scene a.mode id f → Below a.scene id f child g →
    C.Keeps g (a.below child) (b.below child))

include hvisit

/-- What is inside of a container that is shown. -/
theorem nested_keeps {child : NodeId} {g : Frame} (hshown : Uncut a.scene a.mode id f)
    (hbelow : Below a.scene id f child g) : C.coupling.Nested a b g child child :=
  C.calm.nested h.mode (h.holder child) (hvisit child g hshown hbelow)

/-- **A chain gives back the path it found**, whatever stands at its end. -/
theorem follow_keeps (hform : form a.scene id = .chain)
    (hcycle : ∀ x, Chain.closing? f.path (Chain.links a.scene id) = some x →
      C.Rel (Trace.step (.ended (.cycle x))) (Trace.step (.ended (.cycle x)))) :
    C.Keeps f (follow a.scene a.visit a.mode id) (follow b.scene b.visit b.mode id) := by
  refine Trace.Congruence.follow_keeps h.mode h.chain h.fuel h.header ?_
  intro chain link new hf hlocks
  refine Trace.Congruence.arrive_keeps h.mode (fun v => h.step _ (by simp) rfl) ?_ ?_
  · intro ending hending
    cases ending with
    | cycle x => exact hcycle x ((hf.cycle_iff x).1 hending)
    | _ => exact h.step _ (by simp) rfl
  · rintro v rfl
    obtain ⟨rfl, -⟩ := hf.value v rfl
    rw [hlocks v rfl]
    exact hvisit v _ (by simp [Uncut, hform]) (.behind (form_eq_chain_iff.1 hform) hf)

variable (hfront : C.Keeps f (a.front id) (b.front id))

include hfront

theorem sequence_keeps {q : Sequence} (hform : form a.scene id = .sequence q)
    (hform' : form b.scene id = .sequence q) : C.Keeps f (a.level id) (b.level id) := by
  have hs := shape_of_sequence hform
  rw [Side.level, Side.level, level_eq_shown, level_eq_shown, hform, hform']
  refine h.fronted_nest_keeps hfront fun hlimit => ?_
  by_cases hview : a.mode = .dump ∧ byteView? a.scene q ≠ none
  · obtain ⟨hdump, hsome⟩ := hview
    obtain ⟨bytes, hbytes⟩ := Option.ne_none_iff_exists'.1 hsome
    rw [← h.mode, hdump, elements_of_view hbytes,
      elements_of_view ((h.view q).symm.trans hbytes), h.indent]
    exact Trace.Congruence.Keeps.of_quiet (Quiet.bind Quiet.get fun st => Quiet.write _)
  · have hshown : Uncut a.scene a.mode id f := by simpa [Uncut, hform, hlimit] using hview
    have fits := C.calm.fits h.mode h.indent
    refine C.calm.elements h.mode h.indent (h.view q) (fits.spelled_couples ?_)
    exact List.forall₂_same.2 fun child hchild =>
      h.nested_keeps hvisit hshown (.element hs hchild)

theorem record_keeps {fds : List Field} (hform : form a.scene id = .record fds)
    (hform' : form b.scene id = .record fds) : C.Keeps f (a.level id) (b.level id) := by
  have hs := shape_of_record hform
  rw [Side.level, Side.level, level_eq_shown, level_eq_shown, hform, hform']
  refine h.fronted_nest_keeps hfront fun hlimit => ?_
  have hshown : Uncut a.scene a.mode id f := by simp [Uncut, hform, hlimit]
  have fits := C.calm.fits h.mode h.indent
  refine fits.fields_couples (List.forall₂_same.2 fun fd hfd => ⟨rfl, rfl, ?_⟩)
  exact h.nested_keeps hvisit hshown (.field hs hfd)

/-- A map is shown alike if its entries come in the same order. -/
theorem map_keeps {es es' : List Entry} (hform : form a.scene id = .map es)
    (hform' : form b.scene id = .map es')
    (horder : a.scene.config.atLimit f.depth = false →
      C.coupling.Rel f.deeper f.deeper (fun x y => x = y ∧ ∀ e ∈ x, e ∈ es)
        (a.arranged es) (b.arranged es')) :
    C.Keeps f (a.level id) (b.level id) := by
  have hs := shape_of_map hform
  rw [Side.level, Side.level, level_eq_shown, level_eq_shown, hform, hform']
  refine h.fronted_nest_keeps hfront fun hlimit => ?_
  have hshown : Uncut a.scene a.mode id f := by simp [Uncut, hform, hlimit]
  have fits := C.calm.fits h.mode h.indent
  refine fits.ordered_couples (horder hlimit) fun e he => ⟨?_, ?_⟩
  · exact h.nested_keeps hvisit hshown (.key hs he)
  · exact h.nested_keeps hvisit hshown (.entry hs he)

/-- **The rule of a level**: what is asked of two levels follows from what is asked below them, of
the fronts of their values and of the order of entries; and the frame is given back. -/
theorem level_keeps
    (hcycle : form a.scene id = .chain →
      ∀ x, Chain.closing? f.path (Chain.links a.scene id) = some x →
        C.Rel (Trace.step (.ended (.cycle x))) (Trace.step (.ended (.cycle x))))
    (horder : ∀ es es', form a.scene id = .map es → form b.scene id = .map es' →
      a.scene.config.atLimit f.depth = false →
      C.coupling.Rel f.deeper f.deeper (fun x y => x = y ∧ ∀ e ∈ x, e ∈ es)
        (a.arranged es) (b.arranged es')) :
    C.Keeps f (a.level id) (b.level id) := by
  obtain hsame | ⟨es, es', hform, hform'⟩ := h.forms id
  · have meets (hmeets : C.coupling.Meets a b f id id (form a.scene id) (form a.scene id)) :
        C.Keeps f (a.level id) (b.level id) :=
      Coupling.level_couples (C.calm.fits h.mode h.indent) hfront (hsame.symm ▸ hmeets)
    cases hform : form a.scene id with
    | map es =>
        have hform' := hsame.trans hform
        exact h.map_keeps hvisit hfront hform hform' (horder es es hform hform')
    | sequence q => exact h.sequence_keeps hvisit hfront hform (hsame.trans hform)
    | record fds => exact h.record_keeps hvisit hfront hform (hsame.trans hform)
    | held content =>
        rw [hform] at meets
        have hshown : Uncut a.scene a.mode id f := by simp [Uncut, hform]
        exact meets (.held (hvisit content f hshown (.held (shape_of_held hform))))
    | invalid =>
        rw [hform] at meets
        exact meets (.invalid h.invalid_keeps)
    | chain =>
        rw [hform] at meets
        have hnil : C.Keeps f (Render.step (.ended .nil)) (Render.step (.ended .nil)) :=
          .step (h.step _ (by simp) rfl)
        exact meets (.chain (C.calm.indirection h.mode h.indent (h.indirection id hform) hnil
          (h.follow_keeps hvisit hform (hcycle hform))))
    | leaf text =>
        rw [hform] at meets
        refine meets (.leaf ?_)
        rw [h.mode]
        exact C.calm.write _
  · exact h.map_keeps hvisit hfront hform hform' (horder es es' hform hform')

end Facing

end Walk

end ValueLens
