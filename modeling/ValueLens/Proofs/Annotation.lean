/-
**Descriptions in front of the structure.**

A configuration can ask for the structure also of values that describe themselves.  The description
is then put in front of it, in parentheses, and nothing else changes: what such a render writes
without its descriptions is what it writes if no value is asked at all, provided that no value fails
to answer and that descriptions do not order the entries of maps.

In the list of effects a description is the text that stands right in front of the visit of a value
with an answer.  Two lists are related by `ValueLens.Sheds` if the second is the first without the
descriptions, and without the note that a value was asked; the relation also says what the
descriptions are.  It is a congruence, so that two walks are compared level by level: their levels
look alike, and only the fronts of values differ.

Main definitions:

* `ValueLens.Scene.asking` — the scene with another use of answers, with
  `ValueLens.Scene.annotated` and `ValueLens.Scene.muted`;
* `ValueLens.Trace.withoutDescriptions` — a trace without the descriptions of values;
* `ValueLens.Sheds` — effects with and without descriptions.

Main results:

* `ValueLens.Sheds.withoutDescriptions_eq` — what is shed are the descriptions;
* `ValueLens.Walk.walk_sheds` — two walks differ in descriptions only;
* `ValueLens.descriptions_only_add` — **descriptions in front of the structure only add text.**
-/
import ValueLens.Proofs.KindredWalks

set_option relaxedAutoImplicit false
set_option autoImplicit false

namespace ValueLens

open Render

/-! ### Effects without descriptions -/

/-- Whether an answer was a description. -/
def Answer.isDescription : Answer → Bool
  | .text => true
  | .error => true
  | _ => false

namespace Effect

/-- The effect without the note of an answer. -/
def unanswered : Effect → Effect
  | .step (.visited id _) => .step (.visited id .notAsked)
  | e => e

/-- Whether an effect is the description of the value that is visited next. -/
def isDescription (e : Effect) (next : List Effect) : Bool :=
  match e, next with
  | .write _, .step (.visited _ answer) :: _ => answer.isDescription
  | _, _ => false

/-- **Effects without the descriptions of values**, and without the notes of answers. -/
def withoutDescriptions : List Effect → List Effect
  | [] => []
  | e :: es =>
      if e.isDescription es then withoutDescriptions es
      else e.unanswered :: withoutDescriptions es

theorem unanswered_of_stepless {e : Effect} (h : e.step? = none) : e.unanswered = e := by
  cases e with
  | write t => rfl
  | log event => rfl
  | step s => simp [Effect.step?] at h

end Effect

/-- A trace without the descriptions of values. -/
def Trace.withoutDescriptions {α : Type} (t : Trace α) : Trace α :=
  ⟨Effect.withoutDescriptions t.effects, t.result⟩

/-- **Effects with and without descriptions.**  A value that was asked in vain was merely visited,
and the description of a value stands in parentheses in front of its visit. -/
inductive Sheds (g : Graph) : List Effect → List Effect → Prop
  | nil : Sheds g [] []
  | same {e : Effect} {es fs : List Effect} (h : e.unanswered = e) (hrest : Sheds g es fs) :
      Sheds g (e :: es) (e :: fs)
  | absent {id : NodeId} {es fs : List Effect} (h : (g.node id).capability = .absent)
      (hrest : Sheds g es fs) :
      Sheds g (.step (.visited id .absent) :: es) (.step (.visited id .notAsked) :: fs)
  | description {id : NodeId} {t : String} {es fs : List Effect}
      (h : (g.node id).capability = .text t ∨ (g.node id).capability = .error t)
      (hrest : Sheds g es fs) :
      Sheds g (.write ("(" ++ t ++ ") ") :: .step (.visited id (g.node id).capability.answer) :: es)
        (.step (.visited id .notAsked) :: fs)

namespace Sheds

variable {g : Graph} {es fs es' fs' : List Effect}

theorem append (h : Sheds g es fs) (h' : Sheds g es' fs') : Sheds g (es ++ es') (fs ++ fs') := by
  induction h with
  | nil => exact h'
  | same he _ ih => exact .same he ih
  | absent hid _ ih => exact .absent hid ih
  | description hid _ ih => exact .description hid ih

theorem refl_of_stepless (h : ∀ e ∈ es, e.step? = none) : Sheds g es es := by
  induction es with
  | nil => exact .nil
  | cons e es ih =>
      have he : e.unanswered = e := Effect.unanswered_of_stepless (h e (by simp))
      exact .same he (ih fun e' he' => h e' (by simp [he']))

/-- No description is left over: a visit with an answer does not come first. -/
theorem isDescription_eq_false (h : Sheds g es fs) (e : Effect) : e.isDescription es = false := by
  cases e with
  | write t =>
      cases h with
      | nil => rfl
      | @same e' _ _ he _ =>
          -- a visit that stays as it is was not asked
          cases e' with
          | step x =>
              cases x with
              | visited id answer =>
                  obtain rfl : Answer.notAsked = answer := by simpa [Effect.unanswered] using he
                  rfl
              | _ => rfl
          | _ => rfl
      | absent _ _ => rfl
      | description _ _ => rfl
  | log event => rfl
  | step x => rfl

/-- **What is shed are the descriptions.** -/
theorem withoutDescriptions_eq (h : Sheds g es fs) : Effect.withoutDescriptions es = fs := by
  induction h with
  | nil => rfl
  | same he hrest ih =>
      simp only [Effect.withoutDescriptions, hrest.isDescription_eq_false, Bool.false_eq_true,
        if_false, he, ih]
  | absent _ hrest ih =>
      simp only [Effect.withoutDescriptions, hrest.isDescription_eq_false, Bool.false_eq_true,
        if_false, Effect.unanswered, ih]
  | @description id t es fs hid hrest ih =>
      have hanswer : (g.node id).capability.answer.isDescription = true := by
        rcases hid with hid | hid
        · simp [hid, Capability.answer, Answer.isDescription]
        · simp [hid, Capability.answer, Answer.isDescription]
      have hfirst : Effect.isDescription (.write ("(" ++ t ++ ") "))
          (.step (.visited id (g.node id).capability.answer) :: es) = true := hanswer
      have hvisit : Effect.isDescription
          (.step (.visited id (g.node id).capability.answer)) es = false := rfl
      simp only [Effect.withoutDescriptions, hfirst, hvisit, if_true, Bool.false_eq_true, if_false,
        Effect.unanswered, ih]

/-- **Traces with and without descriptions**, and with the same result. -/
def congruence (g : Graph) : Trace.Congruence where
  Rel t₁ t₂ := Sheds g t₁.effects t₂.effects ∧ t₁.result = t₂.result
  bind := by
    rintro α β t₁ t₂ k₁ k₂ ⟨hsheds, hresult⟩ hk
    cases h₁ : t₁.result with
    | none =>
        have h₂ : t₂.result = none := hresult.symm.trans h₁
        rw [Trace.bind_of_none h₁, Trace.bind_of_none h₂]
        exact ⟨hsheds, rfl⟩
    | some a =>
        have h₂ : t₂.result = some a := hresult.symm.trans h₁
        rw [Trace.bind_of_some h₁, Trace.bind_of_some h₂]
        obtain ⟨hsheds', hresult'⟩ := hk a h₁
        exact ⟨hsheds.append hsheds', hresult'⟩
  refl he _ := ⟨refl_of_stepless he, rfl⟩

theorem withoutDescriptions_trace_eq {α : Type} {t₁ t₂ : Trace α}
    (h : (congruence g).Rel t₁ t₂) : t₁.withoutDescriptions = t₂ := by
  obtain ⟨hsheds, hresult⟩ := h
  rw [Trace.withoutDescriptions, hsheds.withoutDescriptions_eq, hresult]

end Sheds

/-! ### Another use of answers -/

/-- The scene with another use of answers. -/
def Scene.asking (s : Scene) (disabled continued : Bool) : Scene :=
  { s with config := { s.config with disableMethods := disabled, continueOnMethod := continued } }

/-- The scene in which descriptions are put in front of the structure. -/
def Scene.annotated (s : Scene) : Scene := s.asking false true

/-- The scene in which no value is asked. -/
def Scene.muted (s : Scene) : Scene := s.asking true s.config.continueOnMethod

/-- **What a value answers whose structure is shown all the same**: nothing stands in for it, and a
description is written in parentheses. -/
theorem Node.consult_continuing {c : Config} (hc : c.continueOnMethod = true) (n : Node)
    (hpanic : ∀ message, n.capability ≠ .panicked message) :
    n.consult c = ⟨(n.capability.text?.map fun t => .write ("(" ++ t ++ ") ")).toList,
      some (n.capability.answer, false)⟩ := by
  cases h : n.capability with
  | panicked message => exact absurd h (hpanic message)
  | absent => rw [consult_of_absent h]; rfl
  | text t => simp only [consult, describe, consult.description, h, hc]; rfl
  | error t => simp only [consult, describe, consult.description, h, hc]; rfl

namespace Walk

variable {s : Scene} {mode : Mode}

/-- A value is asked, and its visit is noted with the answer. -/
def questioned (s : Scene) (id : NodeId) : Render Bool := do
  let (answer, standsIn) ← ask s (s.graph.node id)
  Render.step (.visited id answer)
  pure standsIn

theorem questioned_run {s : Scene} {id : NodeId} {st : RenderState} {es : List Effect}
    {answer : Answer}
    (h : ask s (s.graph.node id) st = ⟨es, some ((answer, false), st)⟩) :
    questioned s id st = ⟨es ++ [.step (.visited id answer)], some (false, st)⟩ := by
  unfold questioned
  rw [run_bind_of_some (by rw [h]), h]
  rfl

theorem ask_muted (n : Node) (st : RenderState) :
    ask s.muted n st = ⟨[], some ((.notAsked, false), st)⟩ := by
  unfold ask
  rw [run_get_bind]
  simp [RenderState.hookAllowed, Scene.muted, Scene.asking]

theorem ask_annotated {n : Node} (hpanic : ∀ message, n.capability ≠ .panicked message)
    (st : RenderState) :
    ask s.annotated n st = ⟨[], some ((.notAsked, false), st)⟩ ∨
      ask s.annotated n st =
        ⟨(n.capability.text?.map fun t => .write ("(" ++ t ++ ") ")).toList,
          some ((n.capability.answer, false), st)⟩ := by
  unfold ask
  rw [run_get_bind]
  split
  · right
    rw [Node.consult_continuing rfl n hpanic]
    exact run_lift_of_some rfl st
  · exact Or.inl rfl

/-- **At the front of a value descriptions are added, and nothing else.** -/
theorem front_sheds {id : NodeId} {f : Frame}
    (hpanic : ∀ message, (s.graph.node id).capability ≠ .panicked message) :
    (Sheds.congruence s.graph).Keeps f (front s.annotated mode id) (front s.muted mode id) := by
  have hquestioned : (Sheds.congruence s.graph).Keeps f (questioned s.annotated id)
      (questioned s.muted id) := by
    intro st hst
    have hstays {es : List Effect} {answer : Answer}
        (h : questioned s.annotated id st = ⟨es ++ [.step (.visited id answer)], some (false, st)⟩)
        (a : Bool) (σ : RenderState) (hσ : (questioned s.annotated id st).result = some (a, σ)) :
        a = a ∧ f.Fits σ := by
      rw [h] at hσ
      obtain ⟨-, rfl⟩ := Prod.mk.inj (Option.some.inj hσ)
      exact ⟨rfl, hst⟩
    rcases ask_annotated hpanic st with hask | hask
    · refine ⟨?_, hstays (questioned_run hask)⟩
      rw [questioned_run (ask_muted _ st), questioned_run hask]
      exact ⟨.same rfl .nil, rfl⟩
    · refine ⟨?_, hstays (questioned_run hask)⟩
      rw [questioned_run (ask_muted _ st), questioned_run hask]
      refine ⟨?_, rfl⟩
      cases h : (s.graph.node id).capability with
      | panicked message => exact absurd h (hpanic message)
      | absent => exact .absent h .nil
      | text t =>
          have hsheds := Sheds.description (Or.inl h) .nil
          rwa [h] at hsheds
      | error t =>
          have hsheds := Sheds.description (Or.inr h) .nil
          rwa [h] at hsheds
  exact .quiet_bind (Mode.quiet_header s (s.graph.node id) mode) fun _ => hquestioned

/-! ### Walks -/

theorem chain_asking (disabled continued : Bool) (n : Nat) (chain : Chain) (id : NodeId) :
    Chain.walk (s.asking disabled continued) n chain id = Chain.walk s n chain id := by
  induction n generalizing chain id with
  | zero => rfl
  | succ n ih =>
      simp only [Chain.walk, ih]
      rfl

/-- Another use of answers changes nothing but the fronts of values. -/
theorem facing_muted {texts₁ texts₂ : Texts} {visit₁ visit₂ : Visit} :
    Facing (Sheds.congruence s.graph) ⟨s.annotated, mode, texts₁, visit₁⟩
      ⟨s.muted, mode, texts₂, visit₂⟩ where
  mode := rfl
  indent := rfl
  limit := rfl
  forms _ := Or.inl rfl
  holder _ := rfl
  view _ := rfl
  indirection _ _ := rfl
  chain n chain id := (chain_asking _ _ n chain id).trans (chain_asking _ _ n chain id).symm
  fuel := rfl
  header _ _ := rfl
  step e he _ := by
    have hsame : (Effect.step e).unanswered = .step e := by
      cases e with
      | visited id answer =>
          obtain rfl := he id answer rfl
          rfl
      | _ => rfl
    exact ⟨.same hsame .nil, rfl⟩

section Walks

variable (hpanic : ∀ id message, (s.graph.node id).capability ≠ .panicked message)
  (hsort : s.config.sortKeys = false)

include hpanic hsort

/-- **Two walks differ in descriptions only.** -/
theorem walk_sheds (n : Nat) (id : NodeId) (f : Frame) :
    (Sheds.congruence s.graph).Keeps f (walk s.annotated n mode id) (walk s.muted n mode id) := by
  induction n generalizing id f with
  | zero => exact fun st hst => ⟨⟨.nil, rfl⟩, by simp [walk]⟩
  | succ n ih =>
      have hunsorted : s.annotated.config.sortKeys = false ∧ s.muted.config.sortKeys = false :=
        ⟨hsort, hsort⟩
      rw [walk_succ, walk_succ]
      refine facing_muted.level_keeps (fun child g _ _ => ih child g) (front_sheds (hpanic id))
        (fun _ _ _ => ⟨.same rfl .nil, rfl⟩) fun es es' hform hform' _ => ?_
      obtain rfl : es = es' := by simpa using hform.symm.trans hform'
      simp only [Side.arranged, arranged, hunsorted, Bool.false_eq_true, if_false]
      exact Trace.Congruence.pure_rel ⟨rfl, fun _ he => he⟩

end Walks

end Walk

/-! ### Renders -/

namespace Scene

variable {s : Scene} (hpanic : ∀ id message, (s.graph.node id).capability ≠ .panicked message)
  (hsort : s.config.sortKeys = false)

include hpanic hsort

theorem present_sheds (mode : Mode) (id : NodeId) :
    (Sheds.congruence s.graph).Rel (s.annotated.present mode id) (s.muted.present mode id) := by
  have hfuel : s.annotated.fuel = s.muted.fuel := rfl
  unfold present
  rw [hfuel]
  have hwalk : (Sheds.congruence s.graph).Keeps .start (Walk.walk s.annotated s.muted.fuel mode id)
      (Walk.walk s.muted s.muted.fuel mode id) :=
    Walk.walk_sheds hpanic hsort s.muted.fuel id .start
  exact (Sheds.congruence s.graph).bind (hwalk {} rfl).1 fun _ _ => .pure _

theorem dump_sheds (ids : List NodeId) :
    (Sheds.congruence s.graph).Rel (s.annotated.dump ids) (s.muted.dump ids) := by
  induction ids with
  | nil => exact .pure _
  | cons id rest ih =>
      have hshown := present_sheds hpanic hsort .dump id
      cases rest with
      | nil => exact .seq hshown (.write _)
      | cons next rest => exact .seq hshown (.seq (.write _) (.seq (.write _) ih))

end Scene

/-- **Descriptions in front of the structure only add text.**  On a graph in which no value fails to
answer, and without an order of keys, what is shown with descriptions differs from what is shown
without asking in nothing but the descriptions: each stands in parentheses in front of the visit of
its value, and without them the traces are the same, on every amount of fuel and from every state;
and so are dumps and compact texts, with their logs. -/
theorem descriptions_only_add (s : Scene)
    (hpanic : ∀ id message, (s.graph.node id).capability ≠ .panicked message)
    (hsort : s.config.sortKeys = false) :
    (∀ n mode id st, Sheds s.graph (Walk.walk s.annotated n mode id st).effects
        (Walk.walk s.muted n mode id st).effects ∧
      (Walk.walk s.annotated n mode id st).withoutDescriptions =
        Walk.walk s.muted n mode id st) ∧
    (∀ ids, Sheds s.graph (s.annotated.dump ids).effects (s.muted.dump ids).effects ∧
      (s.annotated.dump ids).withoutDescriptions = s.muted.dump ids ∧
      (s.annotated.dump ids).withoutDescriptions.captured = s.muted.dumpText ids) ∧
    ∀ types details id,
      Sheds s.graph (s.annotated.present (.compact types details) id).effects
        (s.muted.present (.compact types details) id).effects ∧
      (s.annotated.present (.compact types details) id).withoutDescriptions =
        s.muted.present (.compact types details) id ∧
      (s.annotated.present (.compact types details) id).withoutDescriptions.captured =
        s.muted.render types details id := by
  refine ⟨?_, ?_, ?_⟩
  · intro n mode id st
    have hwalk : (Sheds.congruence s.graph).Rel (Walk.walk s.annotated n mode id st)
        (Walk.walk s.muted n mode id st) :=
      (Walk.walk_sheds hpanic hsort n id st.frame st rfl).1
    exact ⟨hwalk.1, Sheds.withoutDescriptions_trace_eq hwalk⟩
  · intro ids
    have hdump := Scene.dump_sheds hpanic hsort ids
    have heq := Sheds.withoutDescriptions_trace_eq hdump
    exact ⟨hdump.1, heq, by rw [heq]; rfl⟩
  · intro types details id
    have hshown := Scene.present_sheds hpanic hsort (.compact types details) id
    have heq := Sheds.withoutDescriptions_trace_eq hshown
    exact ⟨hshown.1, heq, by rw [heq]; rfl⟩

/-- A record that leads back to itself, with a field whose description looks like its type. -/
def badge : Scene where
  graph :=
    ⟨#[{ shape := .record [⟨"name", 1, .exported⟩, ⟨"next", 2, .internal⟩], typeName := "Badge",
         capability := .error "lost" },
       { shape := .text "x7", typeName := "str", capability := .text "str" },
       { shape := .pointer 0x10 (some 0), typeName := "Link", capability := .text "unseen" }]⟩

theorem badge_answers (id : NodeId) (message : String) :
    (badge.graph.node id).capability ≠ .panicked message := by
  rcases id with _ | _ | _ | id
  · simp [badge, Graph.node]
  · simp [badge, Graph.node]
  · simp [badge, Graph.node]
  · simp [badge, Graph.node, Graph.missing]

/-- The field shows its type and then its description, which are alike. -/
theorem badge_annotated :
    (badge.annotated.render true false 0).result =
      some ("(Badge)(lost) \x7bname:(str)(str) x7 next:" ++
        "(*Badge)(lost) \x7bname:(str)(str) x7 next:(*Badge)<shown>\x7d\x7d") ∧
    (badge.muted.render true false 0).result =
      some "(Badge)\x7bname:(str)x7 next:(*Badge)\x7bname:(str)x7 next:(*Badge)<shown>\x7d\x7d" ∧
    (badge.annotated.present (.compact true false) 0).withoutDescriptions.captured =
      badge.muted.render true false 0 :=
  ⟨by decide +kernel, by decide +kernel,
    ((descriptions_only_add badge badge_answers rfl).2.2 true false 0).2.2⟩

end ValueLens
