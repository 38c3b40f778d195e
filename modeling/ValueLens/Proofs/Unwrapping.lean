/-
**Values that are unwrapped without looking back.**

A debug line tells records and containers from other values, and a type label has a star for each
pointer.  Both see through pointers and dynamic holders, and neither keeps the path that a render
keeps: each goes from a value to what is inside of it for as long as there is something inside.
The values inside of each other form one sequence, because nothing is inside of a value but one
other value.  The sequence ends, or it comes back to a value it has passed; then the unwrapping
never ends, however grounded the graph is, and although every render of the same value does.

So a type label exists exactly if the sequence does not come back to itself, and a debug line
exactly if that is so for each of its values that has no description.

Main definitions:

* `ValueLens.Shape.inner?`, `ValueLens.Graph.Unwraps` — what is inside of a pointer or a holder;
* `ValueLens.Graph.Circular` — the sequence of values inside of each other comes back to itself.

Main results:

* `ValueLens.Graph.endless_of_circular`, `ValueLens.Graph.ends_of_not_circular` — when an unwrapping
  ends, for every loop that unwraps;
* `ValueLens.Scene.debug_helpers_end_iff_not_circular` — **when type labels and debug lines come to
  an end**.
-/
import ValueLens.DebugLine
import ValueLens.Proofs.Termination

set_option relaxedAutoImplicit false
set_option autoImplicit false

namespace ValueLens

/-! ### Values inside of each other -/

/-- **What is inside of a pointer or a holder.** -/
def Shape.inner? : Shape → Option NodeId
  | .pointer _ target => target
  | .holder content => content
  | _ => none

namespace Graph

variable {g : Graph}

/-- A value and what is inside of it. -/
def Unwraps (g : Graph) (id next : NodeId) : Prop := (g.shape id).inner? = some next

/-- **The values inside of each other come back to themselves**, from a value on. -/
def Circular (g : Graph) (id : NodeId) : Prop :=
  ∃ again, Relation.ReflTransGen g.Unwraps id again ∧ Relation.TransGen g.Unwraps again again

/-- Only nodes of the table have something inside. -/
theorem Unwraps.lt_size {id next : NodeId} (h : g.Unwraps id next) : id < g.size := by
  by_contra hge
  simp [Unwraps, shape_of_size_le (Nat.le_of_not_lt hge), Shape.inner?] at h

/-- What is inside of a value is circular if the value is. -/
theorem Circular.next {id next : NodeId} (h : g.Circular id) (hnext : g.Unwraps id next) :
    g.Circular next := by
  obtain ⟨again, hreach, hcycle⟩ := h
  have honly {other : NodeId} (hother : g.Unwraps id other) : other = next :=
    Option.some.inj (hother.symm.trans hnext)
  rcases Relation.ReflTransGen.cases_head hreach with rfl | ⟨other, hother, hrest⟩
  · -- the value itself comes back, and so does what is inside of it
    obtain ⟨other, hother, hback⟩ := Relation.TransGen.head'_iff.1 hcycle
    obtain rfl := honly hother
    exact ⟨other, .refl, Relation.TransGen.tail' hback hnext⟩
  · obtain rfl := honly hother
    exact ⟨again, hrest, hcycle⟩

/-- There is something inside of a circular value. -/
theorem Circular.exists_unwraps {id : NodeId} (h : g.Circular id) : ∃ next, g.Unwraps id next := by
  obtain ⟨again, hreach, hcycle⟩ := h
  rcases Relation.ReflTransGen.cases_head hreach with rfl | ⟨next, hnext, -⟩
  · obtain ⟨next, hnext, -⟩ := Relation.TransGen.head'_iff.1 hcycle
    exact ⟨next, hnext⟩
  · exact ⟨next, hnext⟩

/-! ### Loops that unwrap -/

section Loops

variable (ends : Nat → NodeId → Prop)
  (hsucc : ∀ n id, ends (n + 1) id ↔ ∀ next, g.Unwraps id next → ends n next)

include hsucc

/-- **A loop does not end at a circular value**, on whatever fuel. -/
theorem endless_of_circular (hzero : ∀ id, ¬ends 0 id) {id : NodeId} (h : g.Circular id) (n : Nat) :
    ¬ends n id := by
  induction n generalizing id with
  | zero => exact hzero id
  | succ n ih =>
      intro hend
      obtain ⟨next, hnext⟩ := h.exists_unwraps
      exact ih (h.next hnext) ((hsucc n id).1 hend next hnext)

/-- **A loop ends at every other value**, on fuel for each node of the graph. -/
theorem ends_of_not_circular {id : NodeId} (h : ¬g.Circular id) : ends g.chainFuel id := by
  -- the rank is asked to go down only at values inside of the one at hand
  obtain ⟨rank, hle, hlt⟩ := exists_rank_of_acyclic
    (r := fun a b => Relation.ReflTransGen g.Unwraps id a ∧ g.Unwraps a b)
    (fun a b hab => hab.2.lt_size) fun a hcycle => by
      obtain ⟨b, hfirst, -⟩ := Relation.TransGen.head'_iff.1 hcycle
      exact h ⟨a, hfirst.1, hcycle.lift _ fun _ _ hab => hab.2⟩
  have hends (n : Nat) : ∀ a, Relation.ReflTransGen g.Unwraps id a → rank a < n → ends n a := by
    induction n with
    | zero => exact fun a _ hn => absurd hn (Nat.not_lt_zero _)
    | succ n ih =>
        intro a ha hn
        refine (hsucc n a).2 fun next hnext => ih next (ha.tail hnext) ?_
        have hless := hlt a next ⟨ha, hnext⟩
        omega
  exact hends _ id .refl (Nat.lt_succ_of_le (hle id))

end Loops

theorem isComposite?_isSome_succ (n : Nat) (id : NodeId) :
    (g.isComposite? (n + 1) id).isSome = true ↔
      ∀ next, g.Unwraps id next → (g.isComposite? n next).isSome = true := by
  cases hs : g.shape id with
  | pointer a target => cases target with
    | _ => simp [isComposite?, Unwraps, Shape.inner?, hs]
  | holder content => cases content with
    | _ => simp [isComposite?, Unwraps, Shape.inner?, hs]
  | _ => simp [isComposite?, Unwraps, Shape.inner?, hs]

theorem typeLabelFrom?_isSome_succ (n : Nat) (id : NodeId) :
    (g.typeLabelFrom? (n + 1) id).isSome = true ↔
      ∀ next, g.Unwraps id next → (g.typeLabelFrom? n next).isSome = true := by
  cases hs : g.shape id with
  | pointer a target => cases target with
    | _ => simp [typeLabelFrom?, Unwraps, Shape.inner?, hs]
  | holder content => cases content with
    | _ => simp [typeLabelFrom?, Unwraps, Shape.inner?, hs]
  | _ => simp [typeLabelFrom?, Unwraps, Shape.inner?, hs]

/-- Neither loop ends at a circular value. -/
theorem Circular.endless {id : NodeId} (h : g.Circular id) (n : Nat) :
    g.typeLabelFrom? n id = none ∧ g.isComposite? n id = none := by
  constructor
  · have hstops := endless_of_circular (fun n id => (g.typeLabelFrom? n id).isSome = true)
      typeLabelFrom?_isSome_succ (fun _ => Bool.false_ne_true) h n
    simpa using hstops
  · have hstops := endless_of_circular (fun n id => (g.isComposite? n id).isSome = true)
      isComposite?_isSome_succ (fun _ => Bool.false_ne_true) h n
    simpa using hstops

theorem typeLabel?_isSome_iff (id : NodeId) :
    (g.typeLabel? id).isSome = true ↔ ¬g.Circular id := by
  constructor
  · intro hsome hcircular
    simp [typeLabel?, (hcircular.endless _).1] at hsome
  · exact ends_of_not_circular (fun n id => (g.typeLabelFrom? n id).isSome = true)
      typeLabelFrom?_isSome_succ

theorem isComposite?_isSome_iff (id : NodeId) :
    (g.isComposite? g.chainFuel id).isSome = true ↔ ¬g.Circular id := by
  constructor
  · intro hsome hcircular
    simp [(hcircular.endless _).2] at hsome
  · exact ends_of_not_circular (fun n id => (g.isComposite? n id).isSome = true)
      isComposite?_isSome_succ

end Graph

/-! ### Debug lines -/

namespace Scene

variable {s : Scene}

/-- A value that describes itself, or fails to, where it may be asked. -/
def Answers (s : Scene) (id : NodeId) : Prop :=
  s.config.disableMethods = false ∧ (s.graph.node id).capability ≠ .absent

/-- What a debug line hears of a value. -/
def consulted (s : Scene) (id : NodeId) : Trace Capability :=
  if s.config.disableMethods then pure .absent else (s.graph.node id).describe

/-- What a debug line shows of a value that gave an answer. -/
def shownAs (s : Scene) (id : NodeId) : Capability → Trace (String × Bool)
  | .error t => pure ("error: " ++ t, true)
  | .text t => pure (t, false)
  | .panicked message => pure (Node.panicMark message, false)
  | .absent =>
      match s.graph.isComposite? s.graph.chainFuel id with
      | none => Trace.stalled
      | some true => do
          let dumped ← s.dumpText [id]
          pure (dropLineEnd dumped, false)
      | some false => do
          let shown ← s.render false false id
          pure (shown, false)

theorem debugPart_eq (s : Scene) (id : NodeId) :
    s.debugPart id = s.consulted id >>= s.shownAs id := by
  unfold debugPart consulted
  cases s.config.disableMethods with
  | true => rfl
  | false => rfl

/-- A debug line hears something of exactly those values that answer. -/
theorem consulted_result (s : Scene) (id : NodeId) :
    ∃ answer, (s.consulted id).result = some answer ∧ (s.Answers id ↔ answer ≠ .absent) := by
  unfold consulted
  cases hmethods : s.config.disableMethods with
  | true => exact ⟨.absent, rfl, by simp [Answers, hmethods]⟩
  | false => exact ⟨_, (s.graph.node id).describe_quiet.2, by simp [Answers, hmethods]⟩

section Grounded

variable (hg : s.graph.Grounded) (hecho : ¬(s.config.sortKeys = true ∧ s.config.echoKeys = true))

include hg hecho

/-- Every value of a grounded graph is shown, in either mode. -/
theorem present_isSome (mode : Mode) (id : NodeId) : (s.present mode id).result.isSome = true := by
  obtain ⟨rank, hle, hlt⟩ := hg.exists_rank
  have hcost : Walk.cost s.graph rank [] id ≤ s.fuel :=
    Nat.le_trans (Walk.cost_le_fuel hle [] id) s.graph_fuel_le
  have hkeeps := Walk.walk_stable hecho hle hlt mode s.fuel s.fuel id .start hcost hcost
  have hend := (hkeeps {} rfl).1.isSome trivial
  simpa [present] using hend

theorem dumpText_isSome (ids : List NodeId) : (s.dumpText ids).result.isSome = true := by
  simpa [dumpText, Trace.captured] using dump_isSome (present_isSome hg hecho .dump) ids

/-- **A value has a text in a debug line** if it describes itself or if it can be unwrapped. -/
theorem debugPart_isSome_iff (id : NodeId) :
    (s.debugPart id).result.isSome = true ↔ s.Answers id ∨ ¬s.graph.Circular id := by
  obtain ⟨dumped, hdumped⟩ := Option.isSome_iff_exists.1 (dumpText_isSome hg hecho [id])
  obtain ⟨shown, hshown⟩ : ∃ shown, (s.render false false id).result = some shown := by
    have hend := present_isSome hg hecho (.compact false false) id
    refine Option.isSome_iff_exists.1 ?_
    simpa [render, Trace.captured] using hend
  obtain ⟨answer, hanswer, hanswers⟩ := s.consulted_result id
  rw [hanswers, ← Graph.isComposite?_isSome_iff, debugPart_eq, Trace.bind_of_some hanswer]
  cases answer with
  | absent =>
      unfold shownAs
      cases s.graph.isComposite? s.graph.chainFuel id with
      | none => simp [Trace.stalled]
      | some composite => cases composite with
        | true => simp [Trace.bind_of_some hdumped]
        | false => simp [Trace.bind_of_some hshown]
  | _ => simp [shownAs]

theorem debugParts_isSome_iff (ids : List NodeId) :
    (s.debugParts ids).result.isSome = true ↔
      ∀ id ∈ ids, s.Answers id ∨ ¬s.graph.Circular id := by
  induction ids with
  | nil => simp [debugParts]
  | cons id rest ih =>
      rw [List.forall_mem_cons, ← ih, ← debugPart_isSome_iff hg hecho id]
      simp only [debugParts]
      cases hpart : (s.debugPart id).result with
      | none => simp [Trace.bind_of_none hpart]
      | some part =>
          rw [Trace.bind_of_some hpart]
          cases hrest : (s.debugParts rest).result with
          | none => simp [Trace.bind_of_none hrest]
          | some others => simp [Trace.bind_of_some hrest]

theorem debugLine_isSome_iff (ids : List NodeId) :
    (s.debugLine ids).result.isSome = true ↔
      ∀ id ∈ ids, s.Answers id ∨ ¬s.graph.Circular id := by
  rw [← debugParts_isSome_iff hg hecho ids]
  unfold debugLine
  cases hr : (s.debugParts ids).result with
  | none => simp [Trace.bind_of_none hr]
  | some r => simp [Trace.bind_of_some hr]

end Grounded

/-- **When type labels and debug lines come to an end.**  On a grounded graph, under a configuration
that does not order keys by their compact texts, every dump ends; but a type label is found exactly
if the values inside of each other do not come back to themselves, and a debug line exactly if that
is so for each of its values that has no description.  Where they do come back, no amount of fuel is
enough. -/
theorem debug_helpers_end_iff_not_circular (s : Scene) (hg : s.graph.Grounded)
    (hecho : ¬(s.config.sortKeys = true ∧ s.config.echoKeys = true)) :
    (∀ ids, (s.dumpText ids).result.isSome = true) ∧
      (∀ id, (s.graph.typeLabel? id).isSome = true ↔ ¬s.graph.Circular id) ∧
      (∀ ids, (s.debugLine ids).result.isSome = true ↔
        ∀ id ∈ ids, s.Answers id ∨ ¬s.graph.Circular id) ∧
      ∀ id, s.graph.Circular id → ∀ n,
        s.graph.typeLabelFrom? n id = none ∧ s.graph.isComposite? n id = none := by
  refine ⟨dumpText_isSome hg hecho, Graph.typeLabel?_isSome_iff, debugLine_isSome_iff hg hecho, ?_⟩
  intro id hcircular n
  exact hcircular.endless n

/-- A pointer to a holder that holds the pointer, which may describe itself, and a record that leads
back to itself by a pointer. -/
def whirl (description : Capability) : Scene where
  graph :=
    ⟨#[{ shape := .pointer 0x10 (some 1), typeName := "Link", capability := description },
       { shape := .holder (some 0), typeName := "Any" },
       { shape := .record [⟨"next", 3, .exported⟩], typeName := "Node" },
       { shape := .pointer 0x20 (some 2), typeName := "Back" }]⟩

theorem whirl_grounded (description : Capability) : (whirl description).graph.Grounded := by
  refine Graph.Grounded.of_rank (fun id => if id = 1 ∨ id = 2 then 1 else 0) ?_
  intro id child h
  have hid : id < 4 := h.lt_size
  have hparts : ((whirl description).graph.shape id).parts =
      ((whirl .absent).graph.shape id).parts := by
    rcases id with _ | _ | _ | _ | id <;> rfl
  have hall : ∀ id < 4, ∀ child ∈ ((whirl .absent).graph.shape id).parts,
      (if child = 1 ∨ child = 2 then 1 else 0) < (if id = 1 ∨ id = 2 then 1 else 0) := by
    decide
  exact hall id hid child (hparts ▸ h)

/-- The pointer is inside of what it leads to. -/
theorem whirl_circular (description : Capability) : (whirl description).graph.Circular 0 :=
  ⟨0, .refl, .tail (.single rfl) rfl⟩

/-- The record is behind a pointer, but nothing is inside of a record. -/
theorem whirl_not_circular (description : Capability) : ¬(whirl description).graph.Circular 3 := by
  intro h
  have hback : (whirl description).graph.Unwraps 3 2 := rfl
  obtain ⟨next, hnext⟩ := (h.next hback).exists_unwraps
  cases hnext

/-- The pointer and the holder have a dump but neither a label nor a debug line, unless the pointer
describes itself; the record has them, although it leads back to itself. -/
theorem whirl_debug_helpers :
    (whirl .absent).graph.Grounded ∧
      ((whirl .absent).dumpText [0]).result.isSome = true ∧
      (whirl .absent).graph.typeLabel? 0 = none ∧
      ((whirl .absent).debugLine [3, 0]).result = none ∧
      ((whirl (.text "self")).debugLine [3, 0]).result.isSome = true ∧
      ((whirl .absent).debugLine [3]).result.isSome = true ∧
      (whirl .absent).graph.typeLabel? 3 = some "*Node" := by
  obtain ⟨hdump, hlabel, hline, -⟩ := debug_helpers_end_iff_not_circular _ (whirl_grounded .absent)
    (by simp [whirl])
  obtain ⟨-, -, hline', -⟩ := debug_helpers_end_iff_not_circular _ (whirl_grounded (.text "self"))
    (by simp [whirl])
  refine ⟨whirl_grounded _, hdump _, ?_, ?_, (hline' _).2 ?_, (hline _).2 ?_, by decide⟩
  · rw [← Option.not_isSome_iff_eq_none, hlabel]
    exact fun h => h (whirl_circular _)
  · rw [← Option.not_isSome_iff_eq_none, hline]
    intro h
    rcases h 0 (by simp) with ⟨-, hanswer⟩ | hends
    · exact hanswer rfl
    · exact hends (whirl_circular _)
  · intro id hid
    rcases List.mem_cons.1 hid with rfl | hid
    · exact Or.inr (whirl_not_circular _)
    · obtain rfl := List.mem_singleton.1 hid
      exact Or.inl ⟨rfl, by simp [whirl, Graph.node]⟩
  · intro id hid
    obtain rfl := List.mem_singleton.1 hid
    exact Or.inr (whirl_not_circular _)

end Scene

end ValueLens
