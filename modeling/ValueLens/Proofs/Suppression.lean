/-
**The two suppression flags of a dump.**

A dump leaves out a type name where a chain has named it already, and an indentation where the line
has begun.  Both times a flag is set for the next value to consume.  This module says exactly when a
value of a dump leaves a flag behind for its siblings.

The indentation flag is never left behind.  The type flag is left behind if and only if some chain
reached a value and nothing was visited from there on.  Nothing is visited behind a value that is
hollow: where a chain ends at a dynamic holder and what is held is again a chain, one that ends
without a value, the flag was set for the end of the first chain, and the second one does not
consume it.  Where no chain of the graph ends at a full holder it cannot happen.

Main definitions:

* `ValueLens.Step.Dangles` — a chain reached a value and nothing was visited from there on;
* `ValueLens.Law` — what holds of runs in a dump and goes through sequences;
* `ValueLens.Walk.Flat` — no chain of a graph ends at a full holder;
* `ValueLens.Walk.Hollow` — a value behind which nothing is visited, by the graph and a path alone.

Main results:

* `ValueLens.Walk.level_obeys` — a level of a dump obeys a law if what is below it does;
* `ValueLens.Walk.dump_skipType` — **the steps of a dump decide the type flag**;
* `ValueLens.Walk.not_dangles_of_flat` — no chain dangles where none ends at a full holder;
* `ValueLens.Walk.unvisited_iff_hollow` — the steps behind a value tell whether it is hollow;
* `ValueLens.Walk.dump_skipIndent` — **the indentation flag is consumed**.
-/
import ValueLens.Proofs.Level

set_option relaxedAutoImplicit false
set_option autoImplicit false

namespace ValueLens

open Render

/-! ### Marks -/

namespace Step

/-- What a step says about the next type name: a chain that reached a value suppresses it, and a
value that was visited has consumed the suppression. -/
def mark? : Step → Option Bool
  | .reached _ => some true
  | .visited _ _ => some false
  | _ => none

/-- Whether the next type name is suppressed after steps. -/
def suppression (before : Bool) (steps : List Step) : Bool :=
  steps.foldl (fun b e => e.mark?.getD b) before

/-- No value was visited. -/
def Unvisited (steps : List Step) : Prop := ∀ id answer, Step.visited id answer ∉ steps

/-- **A chain reached a value and nothing was visited from there on.** -/
def Dangles (steps : List Step) : Prop :=
  ∃ before v after, steps = before ++ .reached v :: after ∧ Unvisited after

theorem dangles_cons {e : Step} {steps : List Step} :
    Dangles (e :: steps) ↔ (∃ v, e = .reached v) ∧ Unvisited steps ∨ Dangles steps := by
  constructor
  · rintro ⟨before, v, after, heq, hafter⟩
    cases before with
    | nil =>
        obtain ⟨rfl, rfl⟩ := List.cons.inj heq
        exact Or.inl ⟨⟨v, rfl⟩, hafter⟩
    | cons x before =>
        obtain ⟨-, rfl⟩ := List.cons.inj heq
        exact Or.inr ⟨before, v, after, rfl, hafter⟩
  · rintro (⟨⟨v, rfl⟩, hsteps⟩ | ⟨before, v, after, rfl, hafter⟩)
    · exact ⟨[], v, steps, rfl, hsteps⟩
    · exact ⟨e :: before, v, after, rfl, hafter⟩

theorem not_dangles_nil : ¬Dangles [] := by
  rintro ⟨before, v, after, heq, -⟩
  simp at heq

theorem unvisited_cons {e : Step} {steps : List Step} :
    Unvisited (e :: steps) ↔ (∀ id answer, e ≠ .visited id answer) ∧ Unvisited steps := by
  simp only [Unvisited, List.mem_cons, not_or, forall_and, ne_eq, eq_comm (a := e)]

/-- The last chain or visited value decides, and the flag before them if there are none. -/
theorem suppression_eq_true_iff {before : Bool} {steps : List Step} :
    suppression before steps = true ↔ Dangles steps ∨ before = true ∧ Unvisited steps := by
  induction steps generalizing before with
  | nil => simp [suppression, not_dangles_nil, Unvisited]
  | cons e steps ih =>
      have hstep : suppression before (e :: steps) = suppression (e.mark?.getD before) steps := rfl
      rw [hstep, ih, dangles_cons, unvisited_cons]
      cases e with
      | reached v =>
          simp only [mark?, Option.getD_some, Step.reached.injEq, exists_eq', true_and, ne_eq,
            reduceCtorEq, not_false_eq_true, implies_true]
          constructor
          · rintro (hd | hu)
            · exact Or.inl (Or.inr hd)
            · exact Or.inl (Or.inl hu)
          · rintro ((hu | hd) | ⟨-, hu⟩)
            · exact Or.inr hu
            · exact Or.inl hd
            · exact Or.inr hu
      | visited id answer => simp [mark?]
      | _ => simp [mark?]

theorem not_dangles_append {steps more : List Step} (h : ¬Dangles steps) (hmore : ¬Dangles more) :
    ¬Dangles (steps ++ more) := by
  induction steps with
  | nil => exact hmore
  | cons e steps ih =>
      rw [dangles_cons, not_or] at h
      rw [List.cons_append, dangles_cons, not_or]
      refine ⟨?_, ih h.2⟩
      -- a chain that dangles in the whole dangles before the second part too
      rintro ⟨hreached, hunvisited⟩
      refine h.1 ⟨hreached, ?_⟩
      intro id answer hmem
      exact hunvisited id answer (List.mem_append_left _ hmem)

theorem suppression_append (before : Bool) (steps more : List Step) :
    suppression before (steps ++ more) = suppression (suppression before steps) more :=
  List.foldl_append

end Step

/-- What an effect says about the next type name. -/
def Effect.mark? (e : Effect) : Option Bool := e.step?.bind Step.mark?

theorem Effect.suppression_unmarked {es : List Effect} (h : ∀ e ∈ es, e.mark? = none)
    (before : Bool) : Step.suppression before (es.filterMap Effect.step?) = before := by
  induction es with
  | nil => rfl
  | cons e es ih =>
      have hrest := ih fun e' he' => h e' (by simp [he'])
      have he := h e (by simp)
      cases hs : e.step? with
      | none => simpa [hs] using hrest
      | some s =>
          have hmark : s.mark? = none := by simpa [Effect.mark?, hs] using he
          simpa [List.filterMap_cons, hs, Step.suppression, hmark] using hrest

theorem Effect.not_dangles {es : List Effect} (h : ∀ e ∈ es, e.mark? ≠ some true) :
    ¬Step.Dangles (es.filterMap Effect.step?) := by
  rintro ⟨before, v, after, heq, -⟩
  have hmem : Step.reached v ∈ es.filterMap Effect.step? := by simp [heq]
  obtain ⟨e, he, hs⟩ := List.mem_filterMap.1 hmem
  exact h e he (by simp [Effect.mark?, hs, Step.mark?])

/-! ### Steady computations -/

namespace Render

variable {α β : Type}

/-- A computation that leaves the type flag alone and takes no step that has to do with it. -/
def Steady (m : Render α) : Prop :=
  ∀ st a σ, (m st).result = some (a, σ) →
    σ.skipType = st.skipType ∧ ∀ e ∈ (m st).effects, e.mark? = none

namespace Steady

theorem of_run {m : Render α} {next : RenderState → RenderState}
    (hrun : ∀ st, ∃ a, (m st).result = some (a, next st)) (hnext : ∀ st,
      (next st).skipType = st.skipType) (he : ∀ st, ∀ e ∈ (m st).effects, e.mark? = none) :
    Steady m := by
  intro st a σ h
  obtain ⟨a', hr⟩ := hrun st
  rw [hr, Option.some.injEq, Prod.mk.injEq] at h
  exact ⟨by rw [← h.2, hnext], he st⟩

protected theorem pure (a : α) : Steady (pure a : Render α) :=
  of_run (fun _ => ⟨a, rfl⟩) (fun _ => rfl) (by simp)

protected theorem get : Steady (get : Render RenderState) :=
  of_run (fun st => ⟨st, rfl⟩) (fun _ => rfl) (by simp)

theorem write (t : String) : Steady (Render.write t) :=
  of_run (fun _ => ⟨(), rfl⟩) (fun _ => rfl) (by simp [Effect.mark?, Effect.step?])

theorem log (level : Level) (message : String) : Steady (Render.log level message) :=
  of_run (fun _ => ⟨(), rfl⟩) (fun _ => rfl) (by simp [Effect.mark?, Effect.step?])

theorem step {e : Step} (h : e.mark? = none) : Steady (Render.step e) :=
  of_run (fun _ => ⟨(), rfl⟩) (fun _ => rfl) (by simp [Effect.mark?, Effect.step?, h])

theorem modify {change : RenderState → RenderState}
    (h : ∀ st, (change st).skipType = st.skipType) : Steady (modify change : Render PUnit) :=
  of_run (fun _ => ⟨⟨⟩, rfl⟩) h (by simp)

theorem lift {t : Trace α} (he : ∀ e ∈ t.effects, e.step? = none) :
    Steady (liftM t : Render α) := by
  intro st a σ h
  cases ht : t.result with
  | none => simp [run_lift_of_none ht] at h
  | some a' =>
      rw [run_lift_of_some ht] at h ⊢
      obtain ⟨rfl, rfl⟩ := Prod.mk.inj (Option.some.inj h)
      exact ⟨rfl, fun e hm => by simp [Effect.mark?, he e hm]⟩

protected theorem bind {m : Render α} {k : α → Render β} (hm : Steady m)
    (hk : ∀ a, Steady (k a)) : Steady (m >>= k) := by
  intro st r τ h
  obtain ⟨a, σ, hma, hkr, heffects⟩ := exists_of_bind h
  obtain ⟨hmt, hme⟩ := hm st a σ hma
  obtain ⟨hkt, hke⟩ := hk a σ r τ hkr
  refine ⟨hkt.trans hmt, ?_⟩
  rw [heffects]
  intro e he
  rcases List.mem_append.1 he with he | he
  · exact hme e he
  · exact hke e he

protected theorem ite {c : Prop} [Decidable c] {m n : Render α} (hm : Steady m) (hn : Steady n) :
    Steady (if c then m else n) := by
  split
  · exact hm
  · exact hn

end Steady

end Render

namespace Mode

/-- Indenting consumes the indentation flag, whether it was set or not. -/
theorem indent_result (c : Config) (st : RenderState) :
    (indent c st).result = some ((), { st with skipIndent := false }) := by
  unfold indent
  rw [run_get_bind]
  split
  · rfl
  · next h =>
      have hflag : st.skipIndent = false := by simpa using h
      rw [run_write, ← hflag]

theorem steady_indent (c : Config) : Steady (indent c) := by
  refine Steady.of_run (fun st => ⟨(), indent_result c st⟩) (fun _ => rfl) ?_
  intro st e he
  simp [Effect.mark?, (quiet_indent c st).1 e he]

theorem steady_label (c : Config) (name : String) : Steady (label c name .dump) := by
  refine Steady.bind (steady_indent c) fun _ => Steady.bind (Steady.write _) fun _ => ?_
  exact Steady.modify fun _ => rfl

theorem steady_keyMark : Steady (keyMark .dump) :=
  Steady.bind (Steady.write _) fun _ => Steady.modify fun _ => rfl

theorem steady_chainHeader (s : Scene) (chain : Chain) (link : Link) :
    Steady (chainHeader s chain link .dump) := by
  refine Steady.bind (Steady.write _) fun _ => ?_
  refine Steady.ite ?_ (Steady.write _)
  exact Steady.bind (Steady.write _) fun _ => Steady.write _

/-- The indentation in front of a chain consumes the indentation flag. -/
theorem beginChain_result (c : Config) (shape : Shape) (st : RenderState) :
    (beginChain c shape .dump st).result = some (true, { st with skipIndent := false }) := by
  simp only [beginChain]
  rw [run_bind_of_some (indent_result _ _)]
  rfl

theorem chainHeader_result (s : Scene) (chain : Chain) (link : Link) (st : RenderState) :
    (chainHeader s chain link .dump st).result = some ((), st) := by
  simp only [chainHeader]
  cases s.config.disablePointerAddresses with
  | false => rfl
  | true => rfl

/-- The header of a dump clears the type flag, and consumes the indentation flag unless the type was
suppressed. -/
theorem header_result (s : Scene) (n : Node) (st : RenderState) :
    (header s n .dump st).result =
      some ((), { st with skipType := false, skipIndent := st.skipIndent && st.skipType }) := by
  simp only [header]
  rw [run_get_bind]
  cases ht : st.skipType with
  | false =>
      simp only [Bool.not_false, if_true]
      rw [run_bind_of_some (indent_result _ _)]
      simp only [Bool.and_false]
      rfl
  | true =>
      simp only [Bool.not_true, Bool.false_eq_true, if_false, Bool.and_true]
      rfl

/-- An invalid value does to the flags what a header does. -/
theorem invalid_result (c : Config) (st : RenderState) :
    (invalid c .dump st).result =
      some ((), { st with skipType := false, skipIndent := st.skipIndent && st.skipType }) := by
  simp only [invalid]
  rw [run_get_bind]
  cases ht : st.skipType with
  | false =>
      simp only [Bool.not_false, if_true]
      rw [run_bind_of_some (indent_result _ _)]
      simp only [Bool.and_false]
      rfl
  | true =>
      simp only [Bool.not_true, Bool.false_eq_true, if_false, Bool.and_true]
      rfl

end Mode

/-! ### Laws -/

/-- **What holds of runs in a dump and goes through sequences**: of all runs that have nothing to do
with the type flag, and of those that visit a value and clear the flag. -/
structure Law where
  Rel : RenderState → List Effect → RenderState → Prop
  steady : ∀ {st es σ}, σ.skipType = st.skipType → (∀ e ∈ es, e.mark? = none) → Rel st es σ
  visited : ∀ {st es σ id answer}, σ.skipType = false → (∀ e ∈ es, e.mark? ≠ some true) →
    .step (.visited id answer) ∈ es → Rel st es σ
  trans : ∀ {st es σ fs τ}, Rel st es σ → Rel σ fs τ → Rel st (es ++ fs) τ

namespace Law

variable {L : Law} {α β : Type}

/-- A computation of which a law holds whenever it comes to an end. -/
def Obeys (L : Law) (m : Render α) : Prop :=
  ∀ st a σ, (m st).result = some (a, σ) → L.Rel st (m st).effects σ

theorem Obeys.of_steady {m : Render α} (h : Steady m) : L.Obeys m := by
  intro st a σ hr
  obtain ⟨ht, he⟩ := h st a σ hr
  exact L.steady ht he

theorem Obeys.bind {m : Render α} {k : α → Render β} (hm : L.Obeys m) (hk : ∀ a, L.Obeys (k a)) :
    L.Obeys (m >>= k) := by
  intro st r τ h
  obtain ⟨a, σ, hma, hkr, heffects⟩ := exists_of_bind h
  rw [heffects]
  exact L.trans (hm st a σ hma) (hk a σ r τ hkr)

theorem Obeys.steady_bind {m : Render α} {k : α → Render β} (hm : Steady m)
    (hk : ∀ a, L.Obeys (k a)) : L.Obeys (m >>= k) :=
  Obeys.bind (Obeys.of_steady hm) hk

theorem Obeys.bind_steady {m : Render α} {k : α → Render β} (hm : L.Obeys m)
    (hk : ∀ a, Steady (k a)) : L.Obeys (m >>= k) :=
  Obeys.bind hm fun a => Obeys.of_steady (hk a)

theorem Obeys.ite {c : Prop} [Decidable c] {m n : Render α} (hm : c → L.Obeys m)
    (hn : ¬c → L.Obeys n) : L.Obeys (if c then m else n) := by
  split
  · next hc => exact hm hc
  · next hc => exact hn hc

theorem Obeys.secretly {hidden : Bool} {m : Render Unit} (h : L.Obeys m) :
    L.Obeys (Render.secretly hidden m) := by
  refine Obeys.steady_bind Steady.get fun st => ?_
  refine Obeys.steady_bind (Steady.modify fun _ => rfl) fun _ => ?_
  exact Obeys.bind_steady h fun _ => Steady.modify fun _ => rfl

/-- **Runs that obey a law**, as a coupling of each run with itself. -/
def coupling (L : Law) : Coupling Unit where
  Rel _ _ R m _ := L.Obeys m ∧ ∀ st a σ, (m st).result = some (a, σ) → R a a
  bind := by
    rintro α β i j k R S m - k₁ - ⟨hm, hR⟩ hk
    refine ⟨?_, ?_⟩
    · intro st b τ h
      obtain ⟨a, σ, ha, hb, heffects⟩ := exists_of_bind h
      rw [heffects]
      exact L.trans (hm st a σ ha) ((hk a a (hR st a σ ha)).1 σ b τ hb)
    · intro st b τ h
      obtain ⟨a, σ, ha, hb, -⟩ := exists_of_bind h
      exact (hk a a (hR st a σ ha)).2 σ b τ hb
  done := ⟨Obeys.of_steady (Steady.pure _), fun _ _ _ _ => rfl⟩
  within _ _ := ()
  secretly h := ⟨h.1.secretly, fun _ _ _ _ => rfl⟩

theorem Obeys.couples {m : Render α} (h : L.Obeys m) : L.coupling.Rel () () Eq m m :=
  ⟨h, fun _ _ _ _ => rfl⟩

theorem couples_of_steady {m : Render α} (h : Steady m) : L.coupling.Rel () () Eq m m :=
  (Obeys.of_steady h).couples

end Law

theorem Mode.nest_obeys {L : Law} {s : Scene} {id : NodeId} {bracket : Bracket}
    {inside : Render Unit} (h : L.Obeys inside) : L.Obeys (nest s id bracket inside .dump) := by
  refine Law.Obeys.steady_bind Steady.get fun st => Law.Obeys.ite (fun _ => ?_) fun _ => ?_
  · refine Law.Obeys.of_steady (Steady.bind (Steady.log _ _) fun _ => ?_)
    exact Steady.bind (Steady.step rfl) fun _ => Steady.write _
  · refine Law.Obeys.steady_bind (Steady.step rfl) fun _ => ?_
    refine Law.Obeys.steady_bind (Steady.write _) fun _ => ?_
    have hdeeper : L.Obeys (deeper inside) := by
      refine Law.Obeys.steady_bind (Steady.modify fun _ => rfl) fun _ => ?_
      exact Law.Obeys.bind_steady h fun _ => Steady.modify fun _ => rfl
    refine Law.Obeys.bind_steady hdeeper fun _ => ?_
    exact Steady.bind (steady_indent _) fun _ => Steady.write _

namespace Walk

theorem chain_stepless (s : Scene) (id : NodeId) (st : RenderState) :
    ∀ e ∈ (Chain.walk s (Chain.fuel s.graph) {} id st).effects, e.step? = none := by
  have hroom := Chain.room_lt_fuel s.graph st.path
  obtain ⟨-, -, -, -, he, -⟩ := Chain.walk_follows s (Chain.fuel s.graph) {} id st hroom
  exact he

variable {L : Law} {s : Scene} {visit : Visit} {texts : Texts} {id : NodeId}

/-! #### The pieces of a dump -/

/-- The ornaments of a dump have nothing to do with the type flag. -/
theorem dump_fits : L.coupling.Fits ⟨s, .dump, texts, visit⟩ ⟨s, .dump, texts, visit⟩ where
  divider _ := Law.couples_of_steady (Steady.write _)
  terminator _ := Law.couples_of_steady (Steady.write _)
  keyMark _ := Law.couples_of_steady Mode.steady_keyMark
  beginPart _ := Law.couples_of_steady (Steady.pure _)
  label _ name := Law.couples_of_steady (Mode.steady_label _ name)

/-- A value that is visited clears the flag. -/
theorem front_obeys : L.Obeys (front s .dump id) := by
  intro st standsIn τ h
  obtain ⟨⟨⟩, σ, hheader, hrest, he⟩ := exists_of_bind h
  obtain ⟨⟨answer, stands⟩, σ', hask, hvisited, he'⟩ := exists_of_bind hrest
  obtain rfl := ask_state hask
  obtain ⟨-, rfl⟩ := Prod.mk.inj (Option.some.inj hvisited)
  rw [Mode.header_result, Option.some.injEq, Prod.mk.injEq] at hheader
  have hclear : σ'.skipType = false := by rw [← hheader.2]
  have heffects : (front s .dump id st).effects =
      (Mode.header s (s.graph.node id) .dump st).effects ++
        ((ask s (s.graph.node id) σ').effects ++ [.step (.visited id answer)]) :=
    he.trans (congrArg _ he')
  rw [heffects]
  have hmem : Effect.step (.visited id answer) ∈
      (Mode.header s (s.graph.node id) .dump st).effects ++
        ((ask s (s.graph.node id) σ').effects ++ [.step (.visited id answer)]) := by simp
  -- header and answer bear no mark, and the step after them is the visit
  refine L.visited hclear ?_ hmem
  intro e hm
  simp only [List.mem_append, List.mem_singleton] at hm
  rcases hm with hm | hm | rfl
  · simp [Effect.mark?, (Mode.quiet_header s _ .dump st).1 e hm]
  · simp [Effect.mark?, (quiet_ask s _ σ').1 e hm]
  · simp [Effect.mark?, Effect.step?, Step.mark?]

theorem invalid_obeys : L.Obeys (do
    Render.step (.visited id .notAsked)
    Mode.invalid s.config .dump) := by
  intro st u τ h
  obtain ⟨u, σ, hstep, h, he⟩ := exists_of_bind h
  rw [Mode.invalid_result, Option.some.injEq, Prod.mk.injEq] at h
  rw [he]
  have hmem : Effect.step (.visited id .notAsked) ∈
      (Render.step (.visited id .notAsked) st).effects ++
        (Mode.invalid s.config .dump σ).effects := by simp
  refine L.visited (by rw [← h.2]) ?_ hmem
  intro e hm
  simp only [Render.run_step, List.mem_append, List.mem_singleton] at hm
  rcases hm with rfl | hm
  · simp [Effect.mark?, Effect.step?, Step.mark?]
  · simp [Effect.mark?, (Mode.quiet_invalid s.config .dump σ).1 e hm]

theorem elements_obeys {q : Sequence} (h : L.Obeys (spelled s visit .dump q)) :
    L.Obeys (elements s visit .dump q) := by
  cases hview : byteView? s q with
  | none => rwa [elements_eq_spelled fun _ => hview]
  | some bytes =>
      rw [elements_of_view hview]
      exact Law.Obeys.of_steady (Steady.bind Steady.get fun st => Steady.write _)

theorem steady_arranged (htexts : ∀ held key, ∀ e ∈ (texts held key).effects, e.step? = none)
    (es : List Entry) : Steady (arranged s texts es) := by
  refine Steady.ite (Steady.bind Steady.get fun st => ?_) (Steady.pure _)
  exact Steady.lift (KeyOrder.sort_stepless (htexts st.held) _ _)

/-- A chain obeys a law if the way to the value at its end does. -/
theorem follow_obeys
    (hreach : ∀ v as, Chain.Leads s id as v → L.Obeys (do
      Render.step (.reached v)
      Render.setSkipType true
      visit .dump v)) :
    L.Obeys (follow s visit .dump id) := by
  intro st u τ h
  obtain ⟨chain, link, new, σ, hf, -, hfinish, rfl, heffects⟩ := follow_inv h
  let opened : RenderState := { st with path := new.reverse ++ st.path }
  have hwalk : L.Rel st (Chain.walk s (Chain.fuel s.graph) {} id st).effects opened :=
    L.steady rfl fun e he => by simp [Effect.mark?, chain_stepless s id st e he]
  have hleave : L.Rel σ [] (σ.leave chain.entered) := L.steady rfl (by simp)
  have hobeys : L.Rel opened (finish s visit .dump chain link opened).effects σ := by
    obtain ⟨ρ, hheader, hend⟩ := finish_inv hfinish
    have hfront : L.Rel opened (Mode.chainHeader s chain link .dump opened).effects ρ :=
      Law.Obeys.of_steady (Mode.steady_chainHeader s chain link) _ () ρ hheader
    rcases hend with ⟨v, ρ', rfl, hvalue, hfooter, he⟩ | ⟨ending, -, hfooter, he⟩
    · let inner : RenderState := { ρ with held := chain.locks ++ ρ.held }
      have hin : L.Rel ρ [] inner := L.steady rfl (by simp)
      have hbelow := hreach v _ (hf.value v rfl).2 inner () ρ' hvalue
      have hout : L.Rel ρ' (Mode.chainFooter .dump { ρ' with held := ρ.held }).effects σ := by
        obtain ⟨-, rfl⟩ := Prod.mk.inj (Option.some.inj hfooter)
        exact L.steady rfl (by simp [Mode.chainFooter, Effect.mark?, Effect.step?])
      rw [he]
      exact L.trans hfront (L.trans (L.trans hin hbelow) hout)
    · obtain ⟨-, rfl⟩ := Prod.mk.inj (Option.some.inj hfooter)
      rw [he]
      refine L.trans hfront (L.steady rfl ?_)
      simp [Mode.chainFooter, Effect.mark?, Effect.step?, Step.mark?]
  have hall := L.trans (L.trans hwalk hobeys) hleave
  rw [heffects]
  simpa using hall

/-- **A level of a dump obeys a law** if the levels below and the ends of chains do. -/
theorem level_obeys (htexts : ∀ held key, ∀ e ∈ (texts held key).effects, e.step? = none)
    (hvisit : ∀ child, L.Obeys (visit .dump child))
    (hreach : (s.graph.shape id).isIndirection s.config = true →
      ∀ v as, Chain.Leads s id as v → L.Obeys (do
        Render.step (.reached v)
        Render.setSkipType true
        visit .dump v)) :
    L.Obeys (level s texts visit .dump id) := by
  let side : Side := ⟨s, .dump, texts, visit⟩
  have hnested (child : NodeId) : L.coupling.Nested side side () child child :=
    Law.Obeys.couples (Law.Obeys.steady_bind (Steady.pure _) fun _ => hvisit child)
  have hnest {bracket : Mode.Bracket} {inside : Render Unit}
      (h : L.coupling.Couples () inside inside) :
      L.coupling.Couples () (side.nest id bracket inside) (side.nest id bracket inside) :=
    (Mode.nest_obeys h.1).couples
  refine (Coupling.level_couples (a := side) (b := side) (i := ()) dump_fits front_obeys.couples
    ?_).1
  cases hform : form s id with
  | held content => exact .held (hvisit content).couples
  | invalid => exact .invalid invalid_obeys.couples
  | chain =>
      have hbegin : Steady (Mode.beginChain s.config (s.graph.shape id) .dump) :=
        Steady.bind (Mode.steady_indent _) fun _ => Steady.pure _
      refine .chain (Law.Obeys.couples (Law.Obeys.steady_bind hbegin fun walked => ?_))
      refine Law.Obeys.ite (fun _ => follow_obeys (hreach (form_eq_chain_iff.1 hform))) ?_
      exact fun _ => Law.Obeys.of_steady (Steady.pure _)
  | leaf t => exact .leaf (Law.couples_of_steady (Steady.write _))
  | sequence q =>
      refine .sequence () (List.forall₂_same.2 fun child _ => hnested child) fun h => ?_
      exact hnest (elements_obeys h.1).couples
  | map es =>
      refine .map () ⟨Law.Obeys.of_steady (steady_arranged htexts es), ?_⟩ hnest
      exact fun _ ordered _ _ => List.forall₂_same.2 fun e _ => ⟨hnested e.key, hnested e.value⟩
  | record fds =>
      exact .record () (List.forall₂_same.2 fun fd _ => ⟨rfl, rfl, hnested fd.value⟩) hnest

/-! ### The type flag -/

/-- The steps of a run decide the type flag. -/
def marks : Law where
  Rel st es σ := σ.skipType = Step.suppression st.skipType (es.filterMap Effect.step?)
  steady := by
    intro st es σ hflag hunmarked
    rw [Effect.suppression_unmarked hunmarked, hflag]
  visited := by
    intro st es σ id answer hflag hes hmem
    have hstep : .visited id answer ∈ es.filterMap Effect.step? :=
      List.mem_filterMap.2 ⟨_, hmem, rfl⟩
    rw [hflag, eq_comm, Bool.eq_false_iff, ne_eq, Step.suppression_eq_true_iff]
    rintro (hdangles | ⟨-, hunvisited⟩)
    · exact Effect.not_dangles hes hdangles
    · exact hunvisited id answer hstep
  trans := by
    intro st es σ fs τ h h'
    rw [List.filterMap_append, Step.suppression_append, ← h, h']

/-- No chain dangles in a run. -/
def settled : Law where
  Rel _ es _ := ¬Step.Dangles (es.filterMap Effect.step?)
  steady := by
    intro st es σ hflag hunmarked
    exact Effect.not_dangles fun e he => by simp [hunmarked e he]
  visited := by
    intro st es σ id answer hflag hes hmem
    exact Effect.not_dangles hes
  trans := by
    intro st es σ fs τ h h'
    rw [List.filterMap_append]
    exact Step.not_dangles_append h h'

/-- **The steps of a dump decide the type flag.** -/
theorem dump_skipType (s : Scene) (n : Nat) (id : NodeId) {st σ : RenderState}
    (h : (walk s n .dump id st).result = some ((), σ)) :
    σ.skipType = Step.suppression st.skipType (walk s n .dump id st).steps := by
  have hobeys : ∀ n id, marks.Obeys (walk s n .dump id) := by
    intro n
    induction n with
    | zero =>
        intro id st u σ h
        simp [walk] at h
    | succ n ih =>
        intro id
        refine level_obeys (keyTexts_stepless s n) ih fun _ v _ _ => ?_
        -- the flag that the chain sets is the mark of its step
        intro st u σ h
        have hrest := ih v { st with skipType := true } u σ h
        exact hrest
  exact hobeys n id st () σ h

/-- No chain of a graph ends at a full holder. -/
def Flat (s : Scene) : Prop :=
  ∀ id as v, (s.graph.shape id).isIndirection s.config = true → Chain.Leads s id as v →
    ∀ content, s.graph.shape v ≠ .holder (some content)

/-- A value that is no indirection and no full holder is visited. -/
theorem walk_visits {s : Scene} {v : NodeId} (hv : (s.graph.shape v).isIndirection s.config = false)
    (hfull : ∀ content, s.graph.shape v ≠ .holder (some content)) {n : Nat} {st σ : RenderState}
    (h : (walk s n .dump v st).result = some ((), σ)) :
    ∃ answer, Step.visited v answer ∈ (walk s n .dump v st).steps := by
  cases n with
  | zero => simp [walk] at h
  | succ n =>
      rw [walk_succ] at h ⊢
      obtain ⟨content, hs, -⟩ | ⟨hs, hlevel⟩ | ⟨hid, -⟩ | ⟨-, -, hlevel⟩ :=
        level_cases s (keyTexts s n) (walk s n) .dump v
      · exact absurd hs (hfull content)
      · rw [hlevel] at h ⊢
        obtain ⟨u, σ', -, -, he⟩ := exists_of_bind h
        refine ⟨.notAsked, List.mem_filterMap.2 ⟨.step (.visited v .notAsked), ?_, rfl⟩⟩
        rw [he]
        simp
      · exact absurd hid (by simp [hv])
      · rw [hlevel, value_eq_fronted] at h ⊢
        obtain ⟨σ', answer, standsIn, -, -, -, heffects⟩ := fronted_inv h
        refine ⟨answer, List.mem_filterMap.2 ⟨.step (.visited v answer), ?_, rfl⟩⟩
        rw [heffects]
        simp

/-- **Where no chain ends at a full holder, no chain dangles.** -/
theorem not_dangles_of_flat {s : Scene} (hflat : Flat s) (n : Nat) (id : NodeId)
    {st σ : RenderState} (h : (walk s n .dump id st).result = some ((), σ)) :
    ¬Step.Dangles (walk s n .dump id st).steps := by
  have hobeys : ∀ n id, settled.Obeys (walk s n .dump id) := by
    intro n
    induction n with
    | zero =>
        intro id st u σ h
        simp [walk] at h
    | succ n ih =>
        intro id
        refine level_obeys (keyTexts_stepless s n) ih fun hid v as hleads => ?_
        -- the value at the end is visited, so its chain does not dangle
        intro st u σ h
        have hrest := ih v { st with skipType := true } u σ h
        obtain ⟨answer, hvisited⟩ :=
          walk_visits hleads.not_isIndirection (hflat id as v hid hleads) h
        have hsteps : ¬Step.Dangles (.reached v ::
            (walk s n .dump v { st with skipType := true }).steps) := by
          rw [Step.dangles_cons, not_or]
          exact ⟨fun hu => hu.2 v answer hvisited, hrest⟩
        exact hsteps
  exact hobeys n id st () σ h

/-! ### Hollow values -/

/-- **A value behind which nothing is visited**, seen with a path: a full holder of such a value, a
chain that closes a cycle or leads to no value, or a chain that leads to such a value. -/
inductive Hollow (s : Scene) : List Address → NodeId → Prop
  | held {path : List Address} {id content : NodeId}
      (h : s.graph.shape id = .holder (some content)) (rest : Hollow s path content) :
      Hollow s path id
  | stopped {path : List Address} {id : NodeId}
      (h : (s.graph.shape id).isIndirection s.config = true)
      (hstop : (Chain.closing? path (Chain.links s id)).isSome = true ∨
        ∀ v, ¬Chain.Leads s id (Chain.links s id) v) :
      Hollow s path id
  | behind {path : List Address} {id v : NodeId}
      (h : (s.graph.shape id).isIndirection s.config = true)
      (hleads : Chain.Leads s id (Chain.links s id) v)
      (rest : Hollow s ((Chain.links s id).reverse ++ path) v) : Hollow s path id

/-- Only full holders and indirections are hollow. -/
theorem Hollow.shape {s : Scene} {path : List Address} {id : NodeId} (h : Hollow s path id) :
    (∃ content, s.graph.shape id = .holder (some content)) ∨
      (s.graph.shape id).isIndirection s.config = true := by
  cases h with
  | held h _ => exact Or.inl ⟨_, h⟩
  | stopped h _ => exact Or.inr h
  | behind h _ _ => exact Or.inr h

/-- A chain that ends without a value is hollow. -/
theorem hollow_of_ending {s : Scene} {path new : List Address} {id : NodeId} {link : Link}
    {ending : Ending} (hid : (s.graph.shape id).isIndirection s.config = true)
    (hf : Chain.Follows s path id (Chain.links s id) new link)
    (hending : link.ending? = some ending) : Hollow s path id := by
  refine .stopped hid ?_
  cases hclosing : Chain.closing? path (Chain.links s id) with
  | some a => exact Or.inl rfl
  | none =>
      right
      intro v hleads
      rw [hf.reaches v hleads hclosing] at hending
      simp [Link.ending?] at hending

/-- A chain that leads to a value is hollow if and only if the value is. -/
theorem hollow_iff_of_value {s : Scene} {path new : List Address} {id v : NodeId}
    (hid : (s.graph.shape id).isIndirection s.config = true)
    (hf : Chain.Follows s path id (Chain.links s id) new (.value v)) :
    Hollow s path id ↔ Hollow s ((Chain.links s id).reverse ++ path) v := by
  obtain ⟨-, hleads⟩ := hf.value v rfl
  have hopen : Chain.closing? path (Chain.links s id) = none := by
    cases hclosing : Chain.closing? path (Chain.links s id) with
    | none => rfl
    | some a => exact absurd ((hf.cycle_iff a).2 hclosing) (by simp [Link.ending?])
  refine ⟨fun hhollow => ?_, .behind hid hleads⟩
  cases hhollow with
  | held hs _ => simp [hs, Shape.isIndirection] at hid
  | stopped _ hstop =>
      rcases hstop with hstop | hstop
      · simp [hopen] at hstop
      · exact absurd hleads (hstop v)
  | behind _ hleads' rest =>
      obtain rfl := Link.value.inj (hf.reaches _ hleads' hopen)
      exact rest

/-- The steps at the end of a chain: those of the value it leads to, or the ending. -/
theorem finish_steps {s : Scene} {visit : Visit} {chain : Chain} {link : Link}
    {st σ : RenderState} (h : (finish s visit .dump chain link st).result = some ((), σ)) :
    (∃ v τ, link = .value v ∧ τ.path = st.path ∧
      (∃ ρ, (visit .dump v τ).result = some ((), ρ)) ∧
      (finish s visit .dump chain link st).steps = .reached v :: (visit .dump v τ).steps) ∨
    (∃ ending, link.ending? = some ending ∧
      (finish s visit .dump chain link st).steps = [.ended ending]) := by
  have hheader : (Mode.chainHeader s chain link .dump st).effects.filterMap Effect.step? = [] :=
    List.filterMap_eq_nil_iff.2 (Mode.quiet_chainHeader s chain link .dump st).1
  obtain ⟨τ, hτ, ⟨v, ρ, rfl, hvalue, -, he⟩ | ⟨ending, hending, -, he⟩⟩ := finish_inv h
  · rw [Mode.chainHeader_result, Option.some.injEq, Prod.mk.injEq] at hτ
    refine Or.inl ⟨v, _, rfl, ?_, ⟨ρ, hvalue⟩, ?_⟩
    · simp [← hτ.2]
    · simp only [Trace.steps, he, List.filterMap_append, hheader, List.nil_append]
      simp [Mode.chainFooter, Effect.step?]
  · refine Or.inr ⟨ending, hending, ?_⟩
    simp only [Trace.steps, he, List.filterMap_append, hheader, List.nil_append]
    simp [Mode.chainFooter, Effect.step?]

/-- **Nothing is visited behind a value if and only if it is hollow.** -/
theorem unvisited_iff_hollow (s : Scene) (n : Nat) (id : NodeId) {st σ : RenderState}
    (h : (walk s n .dump id st).result = some ((), σ)) :
    Step.Unvisited (walk s n .dump id st).steps ↔ Hollow s st.path id := by
  induction n generalizing id st σ with
  | zero => simp [walk] at h
  | succ n ih =>
      by_cases hplain : (s.graph.shape id).isIndirection s.config = false ∧
          ∀ content, s.graph.shape id ≠ .holder (some content)
      · -- any other value is visited and not hollow
        obtain ⟨answer, hvisited⟩ := walk_visits hplain.1 hplain.2 h
        refine ⟨fun hu => absurd hvisited (hu id answer), fun hhollow => ?_⟩
        rcases hhollow.shape with ⟨content, hs⟩ | hid
        · exact absurd hs (hplain.2 content)
        · simp [hplain.1] at hid
      · rw [walk_succ] at h ⊢
        obtain ⟨content, hs, hlevel⟩ | ⟨hs, -⟩ | ⟨hid, hlevel⟩ | ⟨hno, hfull, -⟩ :=
          level_cases s (keyTexts s n) (walk s n) .dump id
        · rw [hlevel] at h ⊢
          rw [ih content h]
          refine ⟨.held hs, fun hhollow => ?_⟩
          cases hhollow with
          | held hs' rest =>
              rw [hs] at hs'
              obtain rfl := Option.some.inj (Shape.holder.inj hs')
              exact rest
          | stopped hid _ => simp [hs, Shape.isIndirection] at hid
          | behind hid _ _ => simp [hs, Shape.isIndirection] at hid
        · exact absurd ⟨by simp [hs, Shape.isIndirection], by simp [hs]⟩ hplain
        · rw [hlevel] at h ⊢
          have hbegin : (Mode.beginChain s.config (s.graph.shape id) .dump st).effects.filterMap
              Effect.step? = [] := by
            refine List.filterMap_eq_nil_iff.2 ?_
            exact (Quiet.bind (Mode.quiet_indent s.config) (fun _ => Quiet.pure true) st).1
          unfold indirection at h ⊢
          rw [run_bind_of_some (Mode.beginChain_result _ _ st)] at h ⊢
          obtain ⟨chain, link, new, τ, hf, -, hfinish, -, heffects⟩ := follow_inv h
          simp only [Trace.steps, List.filterMap_append, hbegin, List.nil_append, if_true]
          rw [heffects, List.filterMap_append, List.filterMap_eq_nil_iff.2 (chain_stepless s id _),
            List.nil_append]
          rcases finish_steps hfinish with
            ⟨v, ρ, rfl, hpath, ⟨τ', hvalue⟩, hsteps⟩ | ⟨ending, hending, hsteps⟩
          · have hnew := (hf.value v rfl).1
            subst hnew
            have hbelow := ih v hvalue
            rw [hpath] at hbelow
            rw [hollow_iff_of_value hid hf, ← hbelow]
            simp only [Trace.steps] at hsteps ⊢
            rw [hsteps, Step.unvisited_cons]
            simp
          · refine ⟨fun _ => hollow_of_ending hid hf hending, fun _ => ?_⟩
            simp only [Trace.steps] at hsteps
            rw [hsteps]
            simp [Step.Unvisited]
        · exact absurd ⟨hno, hfull⟩ hplain

/-! ### The indentation flag -/

section Indentation

variable {s : Scene} {id : NodeId} {st σ : RenderState}

/-- A container ends with an indentation, so its contents leave no flag behind. -/
theorem nest_skipIndent {bracket : Mode.Bracket} {inside : Render Unit}
    (hst : st.skipIndent = false)
    (h : (Mode.nest s id bracket inside .dump st).result = some ((), σ)) :
    σ.skipIndent = false := by
  simp only [Mode.nest] at h
  rw [run_get_bind] at h
  split at h
  · obtain rfl : st = σ := (Prod.mk.inj (Option.some.inj h)).2
    exact hst
  · -- whatever the contents did, the closing bracket is indented after them
    obtain ⟨u, σ₁, -, h, -⟩ := exists_of_bind h
    obtain ⟨u, σ₂, -, h, -⟩ := exists_of_bind h
    obtain ⟨u, σ₃, -, h, -⟩ := exists_of_bind h
    rw [run_bind_of_some (Mode.indent_result _ _)] at h
    rw [← (Prod.mk.inj (Option.some.inj h)).2]

theorem finish_skipIndent {visit : Visit} {chain : Chain} {link : Link}
    (hvisit : ∀ v τ ρ, τ.skipIndent = false → (visit .dump v τ).result = some ((), ρ) →
      ρ.skipIndent = false)
    (hst : st.skipIndent = false)
    (h : (finish s visit .dump chain link st).result = some ((), σ)) : σ.skipIndent = false := by
  obtain ⟨τ, hτ, ⟨v, ρ, -, hvalue, hfooter, -⟩ | ⟨ending, -, hfooter, -⟩⟩ := finish_inv h
  · rw [Mode.chainHeader_result, Option.some.injEq, Prod.mk.injEq] at hτ
    obtain ⟨-, rfl⟩ := Prod.mk.inj (Option.some.inj hfooter)
    exact hvisit v _ ρ (by simpa [← hτ.2] using hst) hvalue
  · rw [Mode.chainHeader_result, Option.some.injEq, Prod.mk.injEq] at hτ
    obtain ⟨-, rfl⟩ := Prod.mk.inj (Option.some.inj hfooter)
    rw [← hτ.2]
    exact hst

/-- After the front of a value the flag is clear, and its structure leaves it so. -/
theorem fronted_skipIndent {inner : Render Unit}
    (hinner : ∀ τ, τ.skipIndent = false → (inner τ).result = some ((), σ) → σ.skipIndent = false)
    (hst : (st.skipIndent && st.skipType) = false)
    (h : (fronted s .dump id inner st).result = some ((), σ)) : σ.skipIndent = false := by
  obtain ⟨τ, answer, standsIn, hheader, -, hrest, -⟩ := fronted_inv h
  rw [Mode.header_result] at hheader
  have hclear : τ.skipIndent = false := by
    rw [← (Prod.mk.inj (Option.some.inj hheader)).2]
    exact hst
  split at hrest
  · obtain rfl : τ = σ := (Prod.mk.inj (Option.some.inj hrest)).2
    exact hclear
  · exact hinner τ hclear hrest

end Indentation

/-- **The indentation flag is consumed**, unless both flags were set. -/
theorem dump_skipIndent (s : Scene) (n : Nat) (id : NodeId) {st σ : RenderState}
    (hst : (st.skipIndent && st.skipType) = false)
    (h : (walk s n .dump id st).result = some ((), σ)) : σ.skipIndent = false := by
  induction n generalizing id st σ with
  | zero => simp [walk] at h
  | succ n ih =>
      rw [walk_succ, level_eq_shown] at h
      cases hform : form s id with
      | held content =>
          rw [hform] at h
          exact ih content hst h
      | invalid =>
          rw [hform] at h
          obtain ⟨u, σ₁, hstep, h, -⟩ := exists_of_bind h
          obtain rfl : st = σ₁ := (Prod.mk.inj (Option.some.inj hstep)).2
          rw [Mode.invalid_result] at h
          rw [← (Prod.mk.inj (Option.some.inj h)).2]
          exact hst
      | chain =>
          rw [hform] at h
          simp only [Form.shown, indirection] at h
          rw [run_bind_of_some (Mode.beginChain_result _ _ st)] at h
          obtain ⟨chain, link, new, σ₁, -, -, hfinish, rfl, -⟩ := follow_inv h
          have hσ₁ : σ₁.skipIndent = false :=
            finish_skipIndent (fun v τ ρ hτ hv => ih v (by simp [hτ]) hv) rfl hfinish
          exact hσ₁
      | leaf t =>
          rw [hform] at h
          refine fronted_skipIndent (fun τ hτ hrest => ?_) hst h
          obtain rfl : τ = σ := (Prod.mk.inj (Option.some.inj hrest)).2
          exact hτ
      | sequence q =>
          rw [hform] at h
          exact fronted_skipIndent (fun τ => nest_skipIndent) hst h
      | map es =>
          rw [hform] at h
          exact fronted_skipIndent (fun τ => nest_skipIndent) hst h
      | record fds =>
          rw [hform] at h
          exact fronted_skipIndent (fun τ => nest_skipIndent) hst h

end Walk

end ValueLens
