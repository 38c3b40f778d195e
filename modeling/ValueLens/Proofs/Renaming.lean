/-
**Addresses that do not show.**

The address of an indirection tells it from others: a chain that comes to an address on the path
has closed a cycle.  What the address is does not matter for that.  If the headers of chains are to
leave addresses out, and guards are resolved, then texts tell no more of the addresses than which
of them are the same: they do not change when the addresses are renamed, as long as different
addresses of the graph stay different.  This includes the order of the entries of a map and the
compact texts of keys that it may rest on.  The log does name addresses, at every cycle and every
busy guard.

A renaming that keeps the addresses of a graph apart is extended to one that keeps all addresses
apart, because a walk compares addresses and nothing else.

Main definitions:

* `ValueLens.Graph.renamed` — the graph with other addresses of indirections.

Main results:

* `ValueLens.texts_hide_addresses` — **texts without addresses do not depend on them.**
-/
import Mathlib.Logic.Equiv.Fintype
import ValueLens.Proofs.KindredWalks

set_option relaxedAutoImplicit false
set_option autoImplicit false

namespace ValueLens

open Render

/-! ### Renamed graphs -/

/-- A shape with another address, if it is an indirection.  A handle keeps its own. -/
def Shape.renamed (f : Address → Address) : Shape → Shape
  | .pointer a target => .pointer (f a) target
  | .guarded a content lock => .guarded (f a) content lock
  | shape => shape

/-- **The graph with renamed addresses of indirections.** -/
def Graph.renamed (f : Address → Address) (g : Graph) : Graph :=
  ⟨g.nodes.map fun n => { n with shape := n.shape.renamed f }⟩

theorem Shape.resembles_renamed (f : Address → Address) (shape : Shape) :
    shape.Resembles f (shape.renamed f) := by
  cases shape with
  | pointer a target => exact .pointer a target
  | guarded a content lock => exact .guarded a content lock
  | _ => exact .same rfl

/-- Only the address of the shape matters. -/
theorem Shape.renamed_congr {f f' : Address → Address} {shape : Shape}
    (h : ∀ a, shape.address? = some a → f a = f' a) : shape.renamed f = shape.renamed f' := by
  cases shape with
  | pointer a target => simp only [Shape.renamed, h a rfl]
  | guarded a content lock => simp only [Shape.renamed, h a rfl]
  | _ => rfl

namespace Graph

variable {f : Address → Address} {g : Graph}

@[simp] theorem size_renamed : (g.renamed f).size = g.size := Array.size_map

@[simp] theorem node_renamed (id : NodeId) :
    (g.renamed f).node id = { g.node id with shape := (g.shape id).renamed f } := by
  simp only [shape, node, renamed, Array.getD_eq_getD_getElem?, Array.getElem?_map]
  cases g.nodes[id]? with
  | none => rfl
  | some n => rfl

@[simp] theorem shape_renamed (id : NodeId) :
    (g.renamed f).shape id = (g.shape id).renamed f := by
  rw [shape, node_renamed]

@[simp] theorem typeName_renamed (id : NodeId) : (g.renamed f).typeName id = g.typeName id := by
  rw [typeName, node_renamed, typeName]

/-- A renaming that keeps the addresses of a graph apart is, on the graph, one that keeps all
addresses apart. -/
theorem exists_injective_renaming
    (hf : ∀ a ∈ g.addresses, ∀ b ∈ g.addresses, f a = f b → a = b) :
    ∃ f' : Address → Address, Function.Injective f' ∧ ∀ a ∈ g.addresses, f' a = f a := by
  have hinjective : Function.Injective fun a : { a // a ∈ g.addresses } => f a.1 := by
    rintro ⟨a, ha⟩ ⟨b, hb⟩ hab
    exact Subtype.ext (hf a ha b hb hab)
  obtain ⟨σ, hσ⟩ := Equiv.Perm.exists_extending_pair (Subtype.val : { a // a ∈ g.addresses } → _)
    (fun a => f a.1) Subtype.val_injective hinjective
  exact ⟨σ, σ.injective, fun a ha => hσ ⟨a, ha⟩⟩

end Graph

/-! ### Texts without addresses -/

variable {f : Address → Address} {g : Graph}

/-- A scene and the scene with renamed addresses look alike to who reads only texts. -/
theorem Graph.kin_renamed (hf : ∀ a ∈ g.addresses, ∀ b ∈ g.addresses, f a = f b → a = b)
    {c : Config} (hguards : c.disableGuardResolution = false) (hatchOpen : Bool) :
    ∃ f', Kin .writing f' Eq (fun _ _ => True) ⟨g, c, hatchOpen⟩ ⟨g.renamed f, c, hatchOpen⟩ := by
  obtain ⟨f', hinjective, hsame⟩ := exists_injective_renaming hf
  have hshape (id : NodeId) : (g.renamed f).shape id = (g.shape id).renamed f' := by
    rw [shape_renamed]
    exact Shape.renamed_congr fun a ha => (hsame a (mem_addresses ha)).symm
  have hres (id : NodeId) : (g.shape id).Resembles f' ((g.renamed f).shape id) := by
    rw [hshape id]
    exact Shape.resembles_renamed f' _
  have hname (id : NodeId) : g.typeName id = (g.renamed f).typeName id := by simp
  refine ⟨f', .of_config_eq rfl (by simp) hres hname ?_ hinjective
    (Or.inr ⟨hguards, fun _ _ => rfl⟩) fun _ _ => trivial⟩
  intro id q₁ q₂ h₁ h₂
  -- a sequence has no address
  obtain rfl : q₁ = q₂ := by
    change (g.shape id).elements? = some q₁ at h₁
    change ((g.renamed f).shape id).elements? = some q₂ at h₂
    rw [shape_renamed] at h₂
    generalize g.shape id = shape at h₁ h₂
    cases shape with
    | array q => exact Option.some.inj (h₁.symm.trans h₂)
    | slice q => exact Option.some.inj (h₁.symm.trans h₂)
    | _ => simp [Shape.elements?] at h₁
  refine Walk.byteView?_eq hres hname ?_ ?_ q₁
  · rfl
  · rfl

/-- **Texts without addresses do not depend on them.**  If guards are resolved and a renaming keeps
the addresses of a graph apart, then a dump without the addresses of pointers and every compact text
without details are the same before and after, whatever orders the entries of maps; and after any
number of levels the two walks have written the same. -/
theorem texts_hide_addresses (hf : ∀ a ∈ g.addresses, ∀ b ∈ g.addresses, f a = f b → a = b)
    {c : Config} (hguards : c.disableGuardResolution = false) (hatchOpen : Bool) :
    (c.disablePointerAddresses = true → ∀ roots,
      (Scene.dumpText ⟨g, c, hatchOpen⟩ roots).result =
        (Scene.dumpText ⟨g.renamed f, c, hatchOpen⟩ roots).result) ∧
    (∀ types id, (Scene.render ⟨g, c, hatchOpen⟩ types false id).result =
      (Scene.render ⟨g.renamed f, c, hatchOpen⟩ types false id).result) ∧
    ∀ n mode id, mode.hidesAddresses c = true →
      (fromStart (Walk.walk ⟨g, c, hatchOpen⟩ n mode id)).text =
        (fromStart (Walk.walk ⟨g.renamed f, c, hatchOpen⟩ n mode id)).text := by
  obtain ⟨f', hkin⟩ := Graph.kin_renamed hf hguards hatchOpen
  have hheard {id : NodeId} {secret : Bool} (_ : True) :
      Scene.heard ⟨g, c, hatchOpen⟩ secret id =
        Scene.heard ⟨g.renamed f, c, hatchOpen⟩ secret id := by
    simp [Scene.heard, Scene.mayAsk]
  have hecho (_ : c.sortKeys = true) (_ : c.echoKeys = true) :
      Likeness.writing.Telling ∧ ∀ {id : NodeId} {secret : Bool}, True → True :=
    ⟨Likeness.writing_telling, fun _ => trivial⟩
  refine ⟨?_, ?_, ?_⟩
  · intro hpointers roots
    have hdump : Likeness.writing.Linked Eq (Scene.dump ⟨g, c, hatchOpen⟩ roots)
        (Scene.dump ⟨g.renamed f, c, hatchOpen⟩ roots) :=
      hkin.dump_linked hheard rfl hecho (Or.inr hpointers) fun _ _ => trivial
    exact (Likeness.writing_telling.captured_linked hdump).result_eq
  · intro types id
    have hpresent : Likeness.writing.Linked Eq
        (Scene.present ⟨g, c, hatchOpen⟩ (.compact types false) id)
        (Scene.present ⟨g.renamed f, c, hatchOpen⟩ (.compact types false) id) :=
      hkin.present_linked hheard rfl hecho (Or.inr rfl) trivial
    exact (Likeness.writing_telling.captured_linked hpresent).result_eq
  · intro n mode id hmode
    have hwalk : Likeness.writing.Tied f' Eq false (Walk.walk ⟨g, c, hatchOpen⟩ n mode id)
        (Walk.walk ⟨g.renamed f, c, hatchOpen⟩ n mode id) :=
      hkin.walk_tied hheard rfl hecho n (Or.inr hmode) trivial
    obtain ⟨halike, -⟩ := hwalk.fromStart (RenderState.beside_start f' rfl)
    exact congrArg String.join (Likeness.writing_telling.texts_eq halike)

/-- A cell that leads back to itself through a pointer and through a guard. -/
def knot : Graph :=
  ⟨#[{ shape := .record [⟨"next", 1, .exported⟩, ⟨"lock", 2, .exported⟩], typeName := "Cell" },
     { shape := .pointer 0x10 (some 0), typeName := "Cell" },
     { shape := .guarded 0x20 (some 1) {}, typeName := "Lock" }]⟩

/-- Moves the guard to another address and the pointer to where the guard was.  It keeps the two
apart, though not all addresses. -/
def moved (a : Address) : Address := if a = 0x10 then 0x20 else 0x30

/-- The cycles of the knot are found at its new addresses, and the texts are the same unless they
show addresses. -/
theorem knot_hides_addresses :
    (∀ a ∈ knot.addresses, ∀ b ∈ knot.addresses, moved a = moved b → a = b) ∧
    (Scene.dumpText ⟨knot, { disablePointerAddresses := true }, true⟩ [0]).result =
      (Scene.dumpText ⟨knot.renamed moved, { disablePointerAddresses := true }, true⟩ [0]).result ∧
    (Scene.render ⟨knot, {}, true⟩ true false 0).result =
      (Scene.render ⟨knot.renamed moved, {}, true⟩ true false 0).result ∧
    (Scene.dumpText ⟨knot, {}, true⟩ [0]).result ≠
      (Scene.dumpText ⟨knot.renamed moved, {}, true⟩ [0]).result :=
  have hapart : ∀ a ∈ knot.addresses, ∀ b ∈ knot.addresses, moved a = moved b → a = b := by
    have haddresses : knot.addresses = [0x10, 0x20] := by decide +kernel
    intro a ha b hb hmoved
    simp only [haddresses, List.mem_cons, List.not_mem_nil, or_false] at ha hb
    rcases ha with rfl | rfl <;> rcases hb with rfl | rfl
    · rfl
    · exact absurd hmoved (by decide)
    · exact absurd hmoved (by decide)
    · rfl
  ⟨hapart, (texts_hide_addresses hapart rfl true).1 rfl [0],
    (texts_hide_addresses hapart rfl true).2.1 true 0, by decide +kernel⟩

end ValueLens
