/-
**What a dump writes.**

A computation that comes to an end leaves a text, a result and a last state.  The rules below give
the text of a computation from the texts of its parts: the texts of a sequence follow each other, a
container is its lines between braces, and a value that has no description of its own is its type,
its lengths and its structure.  They speak of states in which no type is suppressed; such a state is
a frame together with the question whether a line has begun.

Main definitions:

* `ValueLens.Render.Writes` — the text, the result and the last state of a computation;
* `ValueLens.Mode.margin`, `ValueLens.Mode.tag`, `ValueLens.Mode.lines` — indentation, types and
  lines.

Main results:

* `ValueLens.Render.Writes.bind` — **the texts of a sequence follow each other**;
* `ValueLens.Mode.nest_writes`, `ValueLens.Mode.list_writes` — containers;
* `ValueLens.Walk.walk_writes_fronted` — **a value without a description**.
-/
import Mathlib.Data.List.Forall2
import ValueLens.Proofs.Siblings

set_option relaxedAutoImplicit false
set_option autoImplicit false

namespace ValueLens

/-! ### What a computation writes -/

namespace Render

variable {α β : Type}

/-- **From a state, a computation comes to an end**, with a text, a result and a last state. -/
structure Writes (m : Render α) (st : RenderState) (t : List Char) (a : α) (σ : RenderState) :
    Prop where
  result : (m st).result = some (a, σ)
  text : (m st).text.toList = t

namespace Writes

variable {m : Render α} {k : α → Render β} {st σ τ : RenderState} {t u : List Char} {a : α} {b : β}

protected theorem bind (hm : Writes m st t a σ) (hk : Writes (k a) σ u b τ) :
    Writes (m >>= k) st (t ++ u) b τ := by
  have hrun := run_bind_of_some hm.result k
  constructor
  · rw [hrun, hk.result]
  · rw [hrun, ← hm.text, ← hk.text]
    simp [Trace.text]

protected theorem pure (a : α) (st : RenderState) : Writes (pure a) st [] a st :=
  ⟨rfl, rfl⟩

theorem write (t : String) (st : RenderState) : Writes (Render.write t) st t.toList () st :=
  ⟨rfl, by simp [Trace.text, Effect.text?]⟩

theorem step (e : Step) (st : RenderState) : Writes (Render.step e) st [] () st :=
  ⟨rfl, rfl⟩

theorem modify (change : RenderState → RenderState) (st : RenderState) :
    Writes (modify change) st [] ⟨⟩ (change st) :=
  ⟨rfl, rfl⟩

/-- Reading the state. -/
theorem get {k : RenderState → Render β} (h : Writes (k st) st t b τ) :
    Writes (get >>= k) st t b τ :=
  ⟨h.result, h.text⟩

end Writes

end Render

open Render

namespace Mode

variable {s : Scene} {f : Frame}

/-- The indentation of a depth. -/
def margin (c : Config) (depth : Nat) : List Char :=
  (String.join (List.replicate depth c.indent)).toList

/-- A type name in front of a value. -/
def tag (typeName : String) : List Char := ("(" ++ typeName ++ ") ").toList

/-- What stands after a part of a container. -/
def ending (last : Bool) : List Char := if last then ['\n'] else [',', '\n']

/-- Texts one below the other, with what divides them. -/
def lines : List (List Char) → List Char
  | [] => []
  | t :: rest => t ++ (ending rest.isEmpty ++ lines rest)

/-- The indentation of a line, unless something stands on it already. -/
def lead (c : Config) (f : Frame) (continues : Bool) : List Char :=
  if continues then [] else margin c f.depth

theorem indent_writes (c : Config) (f : Frame) (continues : Bool) :
    Writes (indent c) (f.state continues) (lead c f continues) () (f.state false) := by
  refine Writes.get ?_
  cases continues with
  | true => exact ⟨rfl, rfl⟩
  | false => exact Writes.write _ _

theorem header_writes (s : Scene) (n : Node) (f : Frame) (continues : Bool) :
    Writes (header s n .dump) (f.state continues)
      (lead s.config f continues ++ (tag n.typeName ++ (lengthsOf s.config n.shape).toList))
      () (f.state false) := by
  refine Writes.get ?_
  refine (indent_writes s.config f continues).bind ((Writes.write _ _).bind ?_)
  exact (Writes.modify _ _).bind (Writes.write _ _)

/-- **A container** is its lines between braces. -/
theorem nest_writes {id : NodeId} (bracket : Bracket) {inside : Render Unit} {t : List Char}
    (hlimit : s.config.atLimit f.depth = false)
    (h : Writes inside (f.deeper.state false) t () (f.deeper.state false)) :
    Writes (nest s id bracket inside .dump) (f.state false)
      (['\x7b', '\n'] ++ (t ++ (margin s.config f.depth ++ ['\x7d']))) () (f.state false) := by
  have hdeeper : Writes (deeper inside) (f.state false) t () (f.state false) := by
    have hin : Writes (modify fun st => { st with depth := st.depth + 1 }) (f.state false) [] ⟨⟩
        (f.deeper.state false) := Writes.modify _ _
    have hout : Writes (modify fun st => { st with depth := st.depth - 1 })
        (f.deeper.state false) [] ⟨⟩ (f.state false) := Writes.modify _ _
    have hall : Writes (deeper inside) (f.state false) ([] ++ (t ++ [])) () (f.state false) :=
      hin.bind (h.bind hout)
    rwa [List.nil_append, List.append_nil] at hall
  refine Writes.get ?_
  rw [if_neg (by simp [Frame.state, hlimit])]
  refine (Writes.step _ _).bind ((Writes.write _ _).bind (hdeeper.bind ?_))
  exact (indent_writes s.config f false).bind (Writes.write _ _)

/-- **The parts of a container** are lines. -/
theorem list_writes {α : Type} {part : α → Render Unit} {st : RenderState} {xs : List α}
    {texts : List (List Char)} (h : List.Forall₂ (fun x t => Writes (part x) st t () st) xs texts) :
    Writes (Mode.list .dump part xs) st (lines texts) () st := by
  induction h with
  | nil => exact Writes.pure () st
  | cons hx hrest ih =>
      cases hrest with
      | nil => exact hx.bind (Writes.write _ _)
      | cons hy hrest => exact hx.bind ((Writes.write _ _).bind ih)

end Mode

namespace Walk

open Mode (tag)

variable {s : Scene} {f : Frame} {id : NodeId}

/-- A value without a description is not replaced by one. -/
theorem ask_writes {n : Node} (h : n.capability = .absent) (st : RenderState) :
    ∃ answer, Writes (ask s n) st [] (answer, false) st := by
  have hconsult : n.consult s.config = pure (.absent, false) := by
    simp [Node.consult, Node.describe, h]
  by_cases hasked : (!n.shape.isHolder && st.hookAllowed s) = true
  · refine ⟨.absent, Writes.get ?_⟩
    rw [if_pos hasked, hconsult]
    exact ⟨rfl, rfl⟩
  · refine ⟨.notAsked, Writes.get ?_⟩
    rw [if_neg hasked]
    exact Writes.pure _ _

/-- **A value without a description** is its type, its lengths and what it has inside. -/
theorem walk_writes_fronted (continues : Bool) {n : Node} {fuel : Nat} {inside : Render Unit}
    {t : List Char} (hnode : s.graph.node id = n) (hcapability : n.capability = .absent)
    (hform : (form s id).shown s (keyTexts s fuel) (walk s fuel) .dump id =
      fronted s .dump id inside)
    (h : Writes inside (f.state false) t () (f.state false)) :
    Writes (walk s (fuel + 1) .dump id) (f.state continues)
      (Mode.lead s.config f continues ++
        (tag n.typeName ++ ((Mode.lengthsOf s.config n.shape).toList ++ t)))
      () (f.state false) := by
  subst hnode
  obtain ⟨answer, hask⟩ := ask_writes (s := s) hcapability (f.state false)
  have hstep : Writes (Render.step (.visited id answer) >>= fun _ => pure false) (f.state false) []
      false (f.state false) := (Writes.step _ _).bind (Writes.pure _ _)
  have hfront : Writes (front s .dump id) (f.state continues) _ false (f.state false) :=
    (Mode.header_writes s (s.graph.node id) f continues).bind (hask.bind hstep)
  have hall : Writes (fronted s .dump id inside) (f.state continues) _ () (f.state false) :=
    hfront.bind h
  rw [walk_succ, level_eq_shown, hform]
  simpa only [List.append_assoc, List.nil_append] using hall

/-- A part of a container is its value. -/
theorem part_writes {fuel : Nat} {t : List Char} {st σ : RenderState}
    (h : Writes (walk s fuel .dump id) st t () σ) :
    Writes (part s (walk s fuel) .dump id) st t () σ :=
  ⟨h.result, h.text⟩

end Walk

end ValueLens
