/-
**What one level of the walk does.**

A level of the walk shows one value and leaves what is below it to others.  If what is below meets a
bond, so does the level, and it gives back the frame it found.  Every statement about whole walks
follows from this by an induction on the fuel, or on whatever measure goes down from a value to what
is below it.  The other results take apart a level that came to an end.

Main results:

* `ValueLens.Walk.level_keeps` — **the rule of a level for bonds**;
* `ValueLens.Walk.walk_frame` — **a walk gives back the frame it found**.
-/
import ValueLens.Proofs.Facing

set_option relaxedAutoImplicit false
set_option autoImplicit false

namespace ValueLens

open Render

/-! ### The order of entries -/

namespace KeyOrder

theorem mem_sortOn {α κ : Type} {compare : κ → κ → Ordering} {xs : List (κ × α)} {a : α} :
    a ∈ sortOn compare xs ↔ a ∈ xs.map Prod.snd := by
  simp [sortOn]

/-- The descriptions of all keys stand beside the entries they describe. -/
theorem descriptions?_quiet (g : Graph) (es : List Entry) :
    (∀ e ∈ (descriptions? g es).effects, e.event?.isSome) ∧
      ∃ r, (descriptions? g es).result = some r ∧
        ∀ keyed, r = some keyed → keyed.map Prod.snd = es := by
  induction es with
  | nil => exact ⟨by simp [descriptions?], some [], rfl, by simp⟩
  | cons e es ih =>
      obtain ⟨he, hr⟩ := (g.node e.key).describe_quiet
      obtain ⟨ihe, r, ihr, ihk⟩ := ih
      unfold descriptions?
      rw [Trace.bind_of_some hr]
      cases (g.node e.key).capability.text? with
      | none => exact ⟨by simpa using he, none, rfl, by simp⟩
      | some t =>
          dsimp only
          rw [Trace.bind_of_some ihr]
          refine ⟨by simpa [or_imp, forall_and] using ⟨he, ihe⟩, _, rfl, ?_⟩
          intro keyed hkeyed
          obtain ⟨keyed', rfl, rfl⟩ := Option.map_eq_some_iff.1 hkeyed
          simp [ihk keyed' rfl]

variable {b : Bond} {s : Scene} {echo₁ echo₂ : NodeId → Trace String}

theorem echoes_holds (h : ∀ key, b.Holds (echo₁ key) (echo₂ key)) (es : List Entry) :
    b.Holds (echoes echo₁ es) (echoes echo₂ es) := by
  induction es with
  | nil => exact Bond.Holds.pure _
  | cons e es ih =>
      refine Bond.Holds.bind (h e.key) fun t _ => ?_
      exact Bond.Holds.bind ih fun keyed _ => Bond.Holds.pure _

theorem echoes_entries {echo : NodeId → Trace String} {es : List Entry}
    {keyed : List (String × Entry)} (h : (echoes echo es).result = some keyed) :
    keyed.map Prod.snd = es := by
  induction es generalizing keyed with
  | nil =>
      obtain rfl := Option.some.inj h
      rfl
  | cons e es ih =>
      obtain ⟨t, -, h⟩ := Trace.exists_of_bind h
      obtain ⟨rest, hrest, h⟩ := Trace.exists_of_bind h
      obtain rfl := Option.some.inj h
      simp [ih hrest]

/-- The descriptions of all keys, where keys may be asked. -/
def asked (g : Graph) (hookAllowed : Bool) (es : List Entry) :
    Trace (Option (List (String × Entry))) :=
  if hookAllowed then descriptions? g es else pure none

/-- The order of entries whose keys were asked. -/
def settle (s : Scene) (echo : NodeId → Trace String) (es : List Entry) :
    Option (List (String × Entry)) → Trace (List Entry)
  | some keyed => pure (sortOn Ord.compare keyed)
  | none =>
      if s.config.echoKeys then do
        let keyed ← echoes echo es
        pure (sortOn Ord.compare keyed)
      else pure es

theorem sortByText_eq (s : Scene) (echo : NodeId → Trace String) (hookAllowed : Bool)
    (es : List Entry) :
    sortByText s echo hookAllowed es = asked s.graph hookAllowed es >>= settle s echo es := by
  cases hookAllowed with
  | false => rfl
  | true => rfl

theorem asked_quiet (g : Graph) (hookAllowed : Bool) (es : List Entry) :
    (∀ e ∈ (asked g hookAllowed es).effects, e.event?.isSome) ∧
      ∃ r, (asked g hookAllowed es).result = some r ∧
        ∀ keyed, r = some keyed → keyed.map Prod.snd = es := by
  cases hookAllowed with
  | false => exact ⟨by simp [asked], none, rfl, by simp⟩
  | true => exact descriptions?_quiet g es

/-- Ordering the entries meets a bond if the compact texts of the keys do. -/
theorem sort_holds (h : s.config.echoKeys = true → ∀ key, b.Holds (echo₁ key) (echo₂ key))
    (hookAllowed : Bool) (es : List Entry) :
    b.Holds (sort s echo₁ hookAllowed es) (sort s echo₂ hookAllowed es) := by
  unfold sort
  split
  · exact Bond.Holds.pure _
  · rw [sortByText_eq, sortByText_eq]
    obtain ⟨he, r, hr, -⟩ := asked_quiet s.graph hookAllowed es
    have hasked : b.Holds (asked s.graph hookAllowed es) (asked s.graph hookAllowed es) :=
      Bond.Holds.refl
        (fun e hm => Effect.closesCycle_eq_false (Effect.step?_eq_none (he e hm))) (by simp [hr])
    refine Bond.Holds.bind hasked fun described _ => ?_
    cases described with
    | some keyed => exact Bond.Holds.pure _
    | none =>
        simp only [settle]
        split
        · next hecho =>
            exact Bond.Holds.bind (echoes_holds (h hecho) es) fun keyed _ => Bond.Holds.pure _
        · exact Bond.Holds.pure _

/-- Ordering loses no entry and brings in none. -/
theorem mem_sort_iff {echo : NodeId → Trace String} {hookAllowed : Bool} {es ordered : List Entry}
    (h : (sort s echo hookAllowed es).result = some ordered) {e : Entry} :
    e ∈ ordered ↔ e ∈ es := by
  unfold sort at h
  split at h
  · obtain rfl := Option.some.inj h
    simp [mem_sortOn]
  · rw [sortByText_eq] at h
    obtain ⟨described, hdescribed, h⟩ := Trace.exists_of_bind h
    obtain ⟨-, r, hr, hkeyed⟩ := asked_quiet s.graph hookAllowed es
    rw [hr, Option.some.injEq] at hdescribed
    cases described with
    | some keyed =>
        obtain rfl := Option.some.inj h
        rw [mem_sortOn, hkeyed keyed hdescribed]
    | none =>
        simp only [settle] at h
        split at h
        · obtain ⟨keyed, hkeyed, h⟩ := Trace.exists_of_bind h
          obtain rfl := Option.some.inj h
          rw [mem_sortOn, echoes_entries hkeyed]
        · obtain rfl := Option.some.inj h
          rfl

/-- Ordering brings in no entry that was not there. -/
theorem mem_of_sort {echo : NodeId → Trace String} {hookAllowed : Bool} {es ordered : List Entry}
    (h : (sort s echo hookAllowed es).result = some ordered) {e : Entry} (he : e ∈ ordered) :
    e ∈ es :=
  (mem_sort_iff h).1 he

/-- Whatever is true of events and of the compact texts of the keys is true of all that ordering
does. -/
theorem sort_effects {P : Effect → Prop} {echo : NodeId → Trace String}
    (hlog : ∀ e : Effect, e.event?.isSome → P e) (hecho : ∀ key, ∀ e ∈ (echo key).effects, P e)
    (hookAllowed : Bool) (es : List Entry) : ∀ e ∈ (sort s echo hookAllowed es).effects, P e := by
  have hechoes (es : List Entry) : ∀ e ∈ (echoes echo es).effects, P e := by
    induction es with
    | nil => simp [echoes]
    | cons x es ih =>
        intro e he
        rcases Trace.mem_effects_bind he with he | ⟨t, -, he⟩
        · exact hecho x.key e he
        · rcases Trace.mem_effects_bind he with he | ⟨keyed, -, he⟩
          · exact ih e he
          · simp at he
  intro e he
  unfold sort at he
  split at he
  · simp at he
  · rw [sortByText_eq] at he
    rcases Trace.mem_effects_bind he with he | ⟨described, -, he⟩
    · exact hlog e ((asked_quiet s.graph hookAllowed es).1 e he)
    · cases described with
      | some keyed => simp [settle] at he
      | none =>
          simp only [settle] at he
          split at he
          · rcases Trace.mem_effects_bind he with he | ⟨keyed, -, he⟩
            · exact hechoes es e he
            · simp at he
          · simp at he

/-- Ordering takes no step of the walk if the compact texts of the keys take none. -/
theorem sort_stepless {echo : NodeId → Trace String}
    (hecho : ∀ key, ∀ e ∈ (echo key).effects, e.step? = none) (hookAllowed : Bool)
    (es : List Entry) : ∀ e ∈ (sort s echo hookAllowed es).effects, e.step? = none :=
  sort_effects (fun _ => Effect.step?_eq_none) hecho hookAllowed es

end KeyOrder

/-! ### Walks on fuel -/

namespace Walk

theorem walk_succ (s : Scene) (n : Nat) : walk s (n + 1) = level s (keyTexts s n) (walk s n) := rfl

/-- The compact text of a key is a walk of its own, whose steps are dropped. -/
theorem keyTexts_stepless (s : Scene) (n : Nat) (held : List Address) (key : NodeId) :
    ∀ e ∈ (keyTexts s n held key).effects, e.step? = none :=
  Trace.captured_stepless _

/-! ### The rule of a level -/

variable {b : Bond} {s : Scene} {f : Frame} {mode : Mode} {visit visit₁ visit₂ : Visit}
  {texts₁ texts₂ : Texts}

/-- Ordering the entries leaves the state alone and brings in no new entry. -/
theorem arranged_keeps (htexts : s.config.sortKeys = true → s.config.echoKeys = true →
      ∀ key, b.Holds (texts₁ f.held key) (texts₂ f.held key)) (es : List Entry) :
    b.congruence.coupling.Rel f f (fun x y => x = y ∧ ∀ e ∈ x, e ∈ es) (arranged s texts₁ es)
      (arranged s texts₂ es) := by
  unfold arranged
  split
  · next hsort =>
      intro st hst
      have hheld : st.held = f.held := (Frame.fits_iff.1 hst).2.2.2
      rw [run_get_bind, run_get_bind, hheld]
      have hh := KeyOrder.sort_holds (htexts hsort) (st.hookAllowed s) es
      refine ⟨Bond.Holds.bind hh fun ordered _ => Bond.Holds.pure _, ?_⟩
      intro ordered τ hτ
      obtain ⟨ordered', hr, hτ⟩ := Trace.exists_of_bind hτ
      obtain ⟨rfl, rfl⟩ := Prod.mk.inj (Option.some.inj hτ)
      exact ⟨⟨rfl, fun e => KeyOrder.mem_of_sort hr⟩, hst⟩
  · exact Trace.Congruence.pure_rel ⟨rfl, fun e => id⟩

/-- A walk looks like any other of its scene. -/
theorem facing_self : Facing b.congruence ⟨s, mode, texts₁, visit₁⟩ ⟨s, mode, texts₂, visit₂⟩ where
  mode := rfl
  indent := rfl
  limit := rfl
  forms _ := Or.inl rfl
  holder _ := rfl
  view _ := rfl
  indirection _ _ := rfl
  chain _ _ _ := rfl
  fuel := rfl
  header _ _ := rfl
  step _ _ := Bond.step_holds

/-- **The rule of a level for bonds**: what is asked of two runs of a level follows from what is
asked below it, and the frame is given back. -/
theorem level_keeps {id : NodeId}
    (hvisit : ∀ child g, Below s id f child g → b.Keeps g (visit₁ mode child) (visit₂ mode child))
    (hecho : s.config.sortKeys = true → s.config.echoKeys = true →
      ∀ key, b.Holds (texts₁ f.held key) (texts₂ f.held key))
    (hcycle : (s.graph.shape id).isIndirection s.config = true →
      ∀ a, Chain.closing? f.path (Chain.links s id) = some a →
        b.Alike [.step (.ended (.cycle a))] [.step (.ended (.cycle a))]) :
    b.Keeps f (level s texts₁ visit₁ mode id) (level s texts₂ visit₂ mode id) := by
  let side₁ : Side := ⟨s, mode, texts₁, visit₁⟩
  let side₂ : Side := ⟨s, mode, texts₂, visit₂⟩
  have facing : Facing b.congruence side₁ side₂ := facing_self
  refine facing.level_keeps (fun child g _ => hvisit child g) ?_ ?_ ?_
  · exact b.congruence.calm.front (a := side₁) (b := side₂) rfl rfl rfl fun _ =>
      Bond.step_keeps rfl
  · exact fun hform x hx => ⟨hcycle (form_eq_chain_iff.1 hform) x hx, rfl, fun _ => rfl⟩
  · intro es es' hform hform' _
    obtain rfl : es = es' := by simpa using hform.symm.trans hform'
    exact arranged_keeps (f := f.deeper) hecho es

/-! ### What a level has done -/

/-- **What a chain that is shown has done**: it walked its links, showed what stands at its end, and
left the path as it was. -/
theorem follow_inv {id : NodeId} {st τ : RenderState}
    (h : (follow s visit mode id st).result = some ((), τ)) :
    ∃ chain link new σ,
      Chain.Follows s st.path id (Chain.links s id) new link ∧
      (∀ v, link = .value v → chain.locks = Chain.locksBehind s id) ∧
      (finish s visit mode chain link { st with path := new.reverse ++ st.path }).result
        = some ((), σ) ∧
      τ = σ.leave chain.entered ∧
      (follow s visit mode id st).effects =
        (Chain.walk s (Chain.fuel s.graph) {} id st).effects ++
          (finish s visit mode chain link { st with path := new.reverse ++ st.path }).effects := by
  have hroom := Chain.room_lt_fuel s.graph st.path
  obtain ⟨chain, link, new, hr, -, -, hf, hlocks⟩ :=
    Chain.walk_follows s (Chain.fuel s.graph) {} id st hroom
  unfold follow at h ⊢
  obtain ⟨⟨chain', link'⟩, σ', hwalk, hrest, he⟩ := exists_of_bind h
  rw [hr, Option.some.injEq, Prod.mk.injEq] at hwalk
  obtain ⟨heq, rfl⟩ := hwalk
  obtain ⟨rfl, rfl⟩ := Prod.mk.inj heq
  obtain ⟨⟨⟩, σ, hfinish, hleave, he'⟩ := exists_of_bind (m := finish s visit mode chain link) hrest
  refine ⟨chain, link, new, σ, hf, ?_, hfinish, ?_, ?_⟩
  · intro v hv
    simpa [Chain.locksBehind] using hlocks v hv
  · exact (Prod.mk.inj (Option.some.inj hleave)).2.symm
  · rw [he]
    refine congrArg _ (he'.trans ?_)
    exact List.append_nil _

/-- **What the end of a chain that is shown has done**: its header, and then the value with the
locks of the chain held, or a mark. -/
theorem finish_inv {chain : Chain} {link : Link} {st τ : RenderState}
    (h : (finish s visit mode chain link st).result = some ((), τ)) :
    ∃ σ, (mode.chainHeader s chain link st).result = some ((), σ) ∧
      ((∃ v ρ, link = .value v ∧
          (visit mode v { σ with skipType := true, held := chain.locks ++ σ.held }).result
            = some ((), ρ) ∧
          (mode.chainFooter { ρ with held := σ.held }).result = some ((), τ) ∧
          (finish s visit mode chain link st).effects =
            (mode.chainHeader s chain link st).effects ++ (.step (.reached v) ::
              (visit mode v { σ with skipType := true, held := chain.locks ++ σ.held }).effects ++
              (mode.chainFooter { ρ with held := σ.held }).effects)) ∨
        ∃ ending, link.ending? = some ending ∧ (mode.chainFooter σ).result = some ((), τ) ∧
          (finish s visit mode chain link st).effects =
            (mode.chainHeader s chain link st).effects ++ (.step (.ended ending) ::
              .write (mode.endingMark ending) :: (mode.chainFooter σ).effects)) := by
  rw [finish_eq_arrive] at h ⊢
  obtain ⟨⟨⟩, σ, hheader, hrest, he⟩ := exists_of_bind h
  rw [he]
  refine ⟨σ, hheader, ?_⟩
  cases hending : link.ending? with
  | some ending =>
      rw [arrive_of_ending hending, bind_assoc] at hrest ⊢
      exact Or.inr ⟨ending, rfl, hrest, rfl⟩
  | none =>
      cases link with
      | value v =>
          simp only [arrive, bind_assoc] at hrest ⊢
          have hrun : ((Render.holding chain.locks (visit mode v) >>= fun _ => mode.chainFooter)
              { σ with skipType := true }).result = some ((), τ) := hrest
          obtain ⟨⟨⟩, ρ', hheld, hfooter, he'⟩ := exists_of_bind hrun
          obtain ⟨ρ, hvisit, rfl, he''⟩ := exists_of_holding hheld
          refine Or.inl ⟨v, ρ, rfl, hvisit, hfooter, ?_⟩
          rw [he''] at he'
          exact congrArg (fun es => _ ++ Effect.step (.reached v) :: es) he'
      | _ => simp [Link.ending?] at hending

/-- Asking leaves the state alone. -/
theorem ask_state {n : Node} {r : Answer × Bool} {st σ : RenderState}
    (h : (ask s n st).result = some (r, σ)) : σ = st := by
  unfold ask at h
  rw [run_get_bind] at h
  split at h
  · obtain ⟨r', -, h⟩ := Trace.exists_of_bind h
    exact (Prod.mk.inj (Option.some.inj h)).2.symm
  · exact (Prod.mk.inj (Option.some.inj h)).2.symm

/-- **What a value that is shown has done**: its header, then its answer, then a step, and then its
structure unless the answer stands in for it. -/
theorem fronted_inv {inner : Render Unit} {id : NodeId} {st τ : RenderState}
    (h : (fronted s mode id inner st).result = some ((), τ)) :
    ∃ σ answer standsIn,
      (mode.header s (s.graph.node id) st).result = some ((), σ) ∧
      (ask s (s.graph.node id) σ).result = some ((answer, standsIn), σ) ∧
      ((if standsIn then pure () else inner) σ).result = some ((), τ) ∧
      (fronted s mode id inner st).effects =
        ((mode.header s (s.graph.node id) st).effects ++ (ask s (s.graph.node id) σ).effects ++
          [.step (.visited id answer)]) ++ ((if standsIn then pure () else inner) σ).effects := by
  simp only [fronted, front, bind_assoc, pure_bind] at h ⊢
  obtain ⟨⟨⟩, σ, hheader, hrest, he⟩ := exists_of_bind h
  obtain ⟨⟨answer, standsIn⟩, σ', hask, hrest', he'⟩ := exists_of_bind hrest
  obtain rfl := ask_state hask
  refine ⟨σ', answer, standsIn, hheader, hask, hrest', ?_⟩
  rw [he, he', List.append_assoc, List.append_assoc]
  rfl

/-- Where keys are not ordered by their compact texts, these do not matter. -/
theorem level_texts_eq (h : ¬(s.config.sortKeys = true ∧ s.config.echoKeys = true))
    (texts texts' : Texts) (visit : Visit) (mode : Mode) (id : NodeId) :
    level s texts visit mode id = level s texts' visit mode id := by
  have harranged (es : List Entry) : arranged s texts es = arranged s texts' es := by
    unfold arranged
    cases hsort : s.config.sortKeys with
    | false => rfl
    | true =>
        have hkeys : s.config.echoKeys = false := by
          cases hkeys : s.config.echoKeys with
          | false => rfl
          | true => exact absurd ⟨hsort, hkeys⟩ h
        simp only [KeyOrder.sort, KeyOrder.sortByText, hkeys]
        rfl
  rw [level_eq_shown, level_eq_shown]
  cases form s id with
  | map es => simp only [Form.shown, entries, harranged]
  | _ => rfl

/-! ### Whole walks -/

/-- **A walk gives back the frame it found.** -/
theorem walk_frame (s : Scene) (n : Nat) (mode : Mode) (id : NodeId) {st σ : RenderState}
    (h : (walk s n mode id st).result = some ((), σ)) : σ.frame = st.frame := by
  have hkeeps : ∀ n id f, (Bond.same False).Keeps f (walk s n mode id) (walk s n mode id) := by
    intro n
    induction n with
    | zero => exact fun id f st _ => ⟨⟨rfl, rfl, False.elim⟩, by simp [walk]⟩
    | succ n ih =>
        intro id f
        exact level_keeps (fun child g _ => ih child g) (fun _ _ key => ⟨rfl, rfl, False.elim⟩)
          fun _ a _ => rfl
  exact ((hkeeps n id st.frame st rfl).2 () σ h).2

end Walk

end ValueLens
