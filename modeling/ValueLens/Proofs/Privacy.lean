/-
**What is private is not asked.**

With the hatch closed, a value behind a private field is never asked to describe itself: not where
it stands as a field, an element, a key or a value of a map, not at the end of a chain of
indirections or inside a dynamic holder, and not for the order of the keys of a map.  What private
values could answer therefore shows nowhere.

This is a statement about two graphs that agree but for the answers of values to which every way
from the roots passes a private field.  A value to which some way is public is asked on that way,
and only on that way, so it has to answer alike.

Main definitions:

* `ValueLens.Graph.SameInPublic` — graphs that differ at most in what private values answer.

Main results:

* `ValueLens.private_answers_never_show` — **what private values answer shows neither in texts nor
  in the log.**
-/
import ValueLens.Proofs.KindredWalks

set_option relaxedAutoImplicit false
set_option autoImplicit false

namespace ValueLens

open Render

/-- **Graphs that differ at most in what private values answer**, those which cannot be seen from
the roots but through a private field. -/
structure Graph.SameInPublic (roots : List NodeId) (g₁ g₂ : Graph) : Prop where
  size_eq : g₁.size = g₂.size
  shape_eq : ∀ id, g₁.shape id = g₂.shape id
  typeName_eq : ∀ id, g₁.typeName id = g₂.typeName id
  capability_eq : ∀ {id}, g₁.Sees roots id false →
    (g₁.node id).capability = (g₂.node id).capability

/-- What is met in private, or can be seen in public. -/
def Graph.Behind (g : Graph) (roots : List NodeId) (id : NodeId) (secret : Bool) : Prop :=
  secret = true ∨ g.Sees roots id false

namespace Graph.SameInPublic

variable {g₁ g₂ : Graph} {roots : List NodeId} (h : g₁.SameInPublic roots g₂)

include h

/-- Two scenes of such graphs look alike. -/
theorem kin (L : Likeness) (c : Config) (hatchOpen : Bool) :
    Kin L id Eq (g₁.Behind roots) ⟨g₁, c, hatchOpen⟩ ⟨g₂, c, hatchOpen⟩ := by
  refine .of_shape_eq rfl rfl h.size_eq h.shape_eq h.typeName_eq ?_
  intro id secret child hidden hid hchild
  cases secret with
  | true => exact Or.inl rfl
  | false =>
      cases hidden with
      | true => exact Or.inl rfl
      | false =>
          rcases hid with hid | hid
          · simp at hid
          · exact Or.inr (hid.next hchild)

/-- With the hatch closed the same is heard of all that is met. -/
theorem heard_eq (c : Config) {id : NodeId} {secret : Bool} (hid : g₁.Behind roots id secret) :
    Scene.heard ⟨g₁, c, false⟩ secret id = Scene.heard ⟨g₂, c, false⟩ secret id := by
  cases secret with
  | true => simp [Scene.heard, Scene.mayAsk]
  | false =>
      rcases hid with hid | hid
      · simp at hid
      · simp [Scene.heard, Scene.mayAsk, h.capability_eq hid]

end Graph.SameInPublic

/-- **What private values answer never shows.**  With the hatch closed, two graphs that differ at
most in what private values answer have the same dump and the same compact texts, with the same log,
unless keys are ordered by their compact texts, which are told out of private; and after any number
of levels the two walks have written and logged the same. -/
theorem private_answers_never_show {g₁ g₂ : Graph} {roots : List NodeId}
    (h : g₁.SameInPublic roots g₂) (c : Config)
    (hecho : ¬(c.sortKeys = true ∧ c.echoKeys = true)) :
    Scene.dumpText ⟨g₁, c, false⟩ roots = Scene.dumpText ⟨g₂, c, false⟩ roots ∧
    (∀ types details, ∀ id ∈ roots,
      Scene.render ⟨g₁, c, false⟩ types details id = Scene.render ⟨g₂, c, false⟩ types details id) ∧
    ∀ n mode, ∀ id ∈ roots,
      (fromStart (Walk.walk ⟨g₁, c, false⟩ n mode id)).text =
        (fromStart (Walk.walk ⟨g₂, c, false⟩ n mode id)).text ∧
      (fromStart (Walk.walk ⟨g₁, c, false⟩ n mode id)).logs =
        (fromStart (Walk.walk ⟨g₂, c, false⟩ n mode id)).logs := by
  have hkin := h.kin .output c false
  have hsame : ∀ a : Address, id a = a := fun _ => rfl
  have hroot {id : NodeId} (hid : id ∈ roots) : g₁.Behind roots id false := Or.inr (.root hid)
  have hunordered {P : Prop} (hsort : c.sortKeys = true) (hkeys : c.echoKeys = true) : P :=
    absurd ⟨hsort, hkeys⟩ hecho
  refine ⟨?_, ?_, ?_⟩
  · exact Likeness.captured_eq_of_output
      (hkin.dump_linked (h.heard_eq c) rfl hunordered (Or.inl hsame) fun id hid => hroot hid)
  · intro types details id hid
    exact Likeness.captured_eq_of_output
      (hkin.present_linked (h.heard_eq c) rfl hunordered (Or.inl hsame) (hroot hid))
  · intro n mode id hid
    have hwalk : Likeness.output.Tied _ Eq false (Walk.walk ⟨g₁, c, false⟩ n mode id)
        (Walk.walk ⟨g₂, c, false⟩ n mode id) :=
      hkin.walk_tied (h.heard_eq c) rfl hunordered n (Or.inl hsame) (hroot hid)
    exact Likeness.output_eq (hwalk.fromStart (RenderState.beside_start _ rfl))

/-- A record with a public label and, in private, a map whose keys may describe themselves. -/
def vault (first second : Capability) : Graph :=
  ⟨#[{ shape := .record [⟨"label", 1, .exported⟩, ⟨"drawers", 2, .internal⟩], typeName := "Vault" },
     { shape := .text "front", typeName := "str", capability := .text "front desk" },
     { shape := .map (some [⟨3, 1⟩, ⟨4, 1⟩]), typeName := "Map" },
     { shape := .record [], typeName := "Drawer", capability := first },
     { shape := .record [], typeName := "Drawer", capability := second }]⟩

/-- Only the record and its label can be seen in public. -/
theorem vault_sees {first second : Capability} {id : NodeId} {passed : Bool}
    (h : (vault first second).Sees [0] id passed) : passed = true ∨ id = 0 ∨ id = 1 := by
  induction h with
  | root h => exact Or.inr (Or.inl (List.mem_singleton.1 h))
  | next _ hchild ih =>
      rcases ih with rfl | rfl | rfl
      · exact Or.inl rfl
      · have hfields : (vault first second).shape 0 =
            .record [⟨"label", 1, .exported⟩, ⟨"drawers", 2, .internal⟩] := rfl
        simp only [hfields, Shape.outlets, List.map_cons, List.map_nil, List.mem_cons,
          Prod.mk.injEq, List.not_mem_nil, or_false] at hchild
        rcases hchild with ⟨rfl, -⟩ | ⟨rfl, rfl⟩
        · exact Or.inr (Or.inr rfl)
        · exact Or.inl (by simp)
      · exact absurd hchild List.not_mem_nil

theorem vault_sameInPublic (first second first' second' : Capability) :
    (vault first second).SameInPublic [0] (vault first' second') where
  size_eq := rfl
  shape_eq := by
    rintro (_ | _ | _ | _ | _ | id) <;> rfl
  typeName_eq := by
    rintro (_ | _ | _ | _ | _ | id) <;> rfl
  capability_eq := by
    intro id hid
    rcases vault_sees hid with h | rfl | rfl
    · simp at h
    · rfl
    · rfl

/-- Keys of a private map that would order it, and keys that would fail to describe themselves: the
closed hatch tells neither, though the open one does. -/
theorem vault_keeps_answers :
    (vault (.text "b") (.text "a")).SameInPublic [0] (vault .absent (.panicked "jammed")) ∧
    Scene.dumpText ⟨vault (.text "b") (.text "a"), { sortKeys := true }, false⟩ [0] =
      Scene.dumpText ⟨vault .absent (.panicked "jammed"), { sortKeys := true }, false⟩ [0] ∧
    Scene.dumpText ⟨vault (.text "b") (.text "a"), {}, true⟩ [0] ≠
      Scene.dumpText ⟨vault .absent (.panicked "jammed"), {}, true⟩ [0] :=
  ⟨vault_sameInPublic _ _ _ _,
    (private_answers_never_show (vault_sameInPublic _ _ _ _) { sortKeys := true } (by simp)).1,
    by decide +kernel⟩

end ValueLens
