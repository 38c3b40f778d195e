/-
**A raw view is a short cut and nothing else.**

A sequence of bytes may come with a raw view of its elements.  A dump takes the view if the hatch is
open and there is one, and else converts the elements one by one; a sequence in which some element
has no byte is shown element by element.  If the views of a graph are honest, both ways come to the
same bytes, or to none, so a dump does not tell whether the hatch was open and which views were
there.

The hatch also lets private values describe themselves.  Where they have nothing to say this makes
no difference either, and then dumps agree with the hatch open and closed.  The compact text of a
key is told out of private, so a value that is met in public there may have been met in private
before; what is met is bounded accordingly.

Main definitions:

* `ValueLens.Graph.HonestViews` — every raw view tells the elements it stands for;
* `ValueLens.Graph.withoutViews` — the graph without some of its views.

Main results:

* `ValueLens.Walk.byteView?_of_honest` — an honest view gives what the elements give;
* `ValueLens.byte_views_never_show` — **dumps do not depend on raw views.**
-/
import ValueLens.Proofs.KindredWalks

set_option relaxedAutoImplicit false
set_option autoImplicit false

namespace ValueLens

open Render

/-! ### Views -/

/-- **Every raw view tells the elements it stands for**, converted one by one. -/
def Graph.HonestViews (g : Graph) : Prop :=
  ∀ id q bytes, (g.shape id).elements? = some q → q.bytes = some bytes →
    Walk.itemBytes? g q.items = some bytes

/-- A shape without its raw view. -/
def Shape.withoutView : Shape → Shape
  | .array q => .array { q with bytes := none }
  | .slice (some q) => .slice (some { q with bytes := none })
  | shape => shape

/-- **The graph without the raw views of some nodes.** -/
def Graph.withoutViews (dropped : NodeId → Bool) (g : Graph) : Graph :=
  ⟨g.nodes.mapIdx fun id n => if dropped id then { n with shape := n.shape.withoutView } else n⟩

theorem Shape.resembles_withoutView (shape : Shape) :
    shape.Resembles (fun a => a) shape.withoutView := by
  cases shape with
  | array q => exact .array rfl rfl
  | slice q =>
      cases q with
      | none => exact .same rfl
      | some q => exact .slice rfl rfl
  | pointer a target => exact .pointer a target
  | guarded a content lock => exact .guarded a content lock
  | _ => exact .same rfl

/-- What is left is the same elements, without a view. -/
theorem Shape.elements?_withoutView (shape : Shape) :
    shape.withoutView.elements? = shape.elements?.map fun q => { q with bytes := none } := by
  cases shape with
  | slice q =>
      cases q with
      | none => rfl
      | some q => rfl
  | _ => rfl

@[simp] theorem Shape.elements?_holding (held : List Address) (shape : Shape) :
    (shape.holding held).elements? = shape.elements? := by
  cases shape with
  | _ => rfl

theorem Shape.withoutView_holding (held : List Address) (shape : Shape) :
    (shape.holding held).withoutView = shape.withoutView.holding held := by
  cases shape with
  | slice q =>
      cases q with
      | _ => rfl
  | _ => rfl

namespace Graph

variable {dropped : NodeId → Bool} {g : Graph}

@[simp] theorem size_withoutViews : (g.withoutViews dropped).size = g.size := Array.size_mapIdx

theorem node_withoutViews (id : NodeId) :
    (g.withoutViews dropped).node id =
      { g.node id with
        shape := if dropped id then (g.shape id).withoutView else g.shape id } := by
  simp only [shape, node, withoutViews, Array.getD_eq_getD_getElem?, Array.getElem?_mapIdx]
  cases g.nodes[id]? with
  | none => simp [missing, Shape.withoutView]
  | some n => cases dropped id with
    | _ => simp

theorem shape_withoutViews (id : NodeId) :
    (g.withoutViews dropped).shape id =
      if dropped id then (g.shape id).withoutView else g.shape id := by
  rw [shape, node_withoutViews]

@[simp] theorem typeName_withoutViews (id : NodeId) :
    (g.withoutViews dropped).typeName id = g.typeName id := by
  rw [typeName, node_withoutViews, typeName]

@[simp] theorem capability_withoutViews (id : NodeId) :
    ((g.withoutViews dropped).node id).capability = (g.node id).capability := by
  rw [node_withoutViews]

/-- Locks and views have nothing to do with each other. -/
theorem withoutViews_holding (dropped : NodeId → Bool) (g : Graph) (held : List Address) :
    (g.holding held).withoutViews dropped = (g.withoutViews dropped).holding held := by
  refine ext_node (by simp) fun id => ?_
  simp only [node_withoutViews, node_holding, shape_holding, shape_withoutViews,
    Shape.withoutView_holding]
  split
  · rfl
  · rfl

theorem HonestViews.holding (h : g.HonestViews) (held : List Address) :
    (g.holding held).HonestViews := by
  intro id q bytes hq hbytes
  rw [Walk.itemBytes?_holding]
  exact h id q bytes (by simpa using hq) hbytes

theorem resembles_withoutViews (dropped : NodeId → Bool) (g : Graph) (id : NodeId) :
    (g.shape id).Resembles (fun a => a) ((g.withoutViews dropped).shape id) := by
  rw [shape_withoutViews]
  split
  · exact Shape.resembles_withoutView _
  · exact .refl_of_id _

/-- A sequence that is left has the elements it had, and no view that it did not have. -/
theorem exists_elements_of_withoutViews {id : NodeId} {q : Sequence}
    (h : ((g.withoutViews dropped).shape id).elements? = some q) :
    ∃ q₀, (g.shape id).elements? = some q₀ ∧ q.items = q₀.items ∧
      ∀ bytes, q.bytes = some bytes → q₀.bytes = some bytes := by
  rw [shape_withoutViews] at h
  split at h
  · rw [Shape.elements?_withoutView] at h
    obtain ⟨q₀, h₀, rfl⟩ := Option.map_eq_some_iff.1 h
    exact ⟨q₀, h₀, rfl, by simp⟩
  · exact ⟨q, h, rfl, fun _ h => h⟩

end Graph

/-- **An honest view gives what the elements give.** -/
theorem Walk.byteView?_of_honest {s : Scene} {q : Sequence}
    (h : ∀ bytes, q.bytes = some bytes → itemBytes? s.graph q.items = some bytes) :
    byteView? s q = if startsWithByte s q then itemBytes? s.graph q.items else none := by
  unfold byteView?
  split
  · cases hb : q.bytes with
    | none => cases s.hatchOpen with
      | _ => rfl
    | some bytes =>
        rw [h bytes hb]
        cases s.hatchOpen with
        | _ => rfl
  · rfl

/-! ### Dumps -/

/-- What can be met, in private only along a way that passes a private field. -/
def Graph.Meets (g : Graph) (roots : List NodeId) (id : NodeId) (secret : Bool) : Prop :=
  ∃ passed, g.Sees roots id passed ∧ (secret = true → passed = true)

theorem Graph.Meets.next {g : Graph} {roots : List NodeId} {id child : NodeId}
    {secret hidden : Bool} (h : g.Meets roots id secret)
    (hchild : (child, hidden) ∈ (g.shape id).outlets) : g.Meets roots child (secret || hidden) := by
  obtain ⟨passed, hsees, hpassed⟩ := h
  refine ⟨passed || hidden, hsees.next hchild, ?_⟩
  cases hidden with
  | true => simp
  | false => simpa using hpassed

section Scenes

variable {g : Graph} {roots : List NodeId} (c : Config) (hatchOpen hatchOpen' : Bool)
  (dropped : NodeId → Bool)

/-- With honest views the hatch and the views make no difference to what is seen. -/
theorem Graph.HonestViews.kin (h : g.HonestViews) (L : Likeness) :
    Kin L (fun a => a) Eq (g.Meets roots) ⟨g, c, hatchOpen⟩
      ⟨g.withoutViews dropped, c, hatchOpen'⟩ := by
  have hres := g.resembles_withoutViews dropped
  have hname (id : NodeId) : g.typeName id = (g.withoutViews dropped).typeName id := by simp
  refine .of_config_eq rfl (by simp) hres hname ?_ (fun _ _ h => h) (Or.inl fun _ => rfl)
    fun hid hchild => hid.next hchild
  intro id q₁ q₂ h₁ h₂
  obtain ⟨q₀, h₀, hitems, hbytes⟩ := Graph.exists_elements_of_withoutViews h₂
  obtain rfl : q₀ = q₁ := Option.some.inj (h₀.symm.trans h₁)
  have hstarts : Walk.startsWithByte ⟨g, c, hatchOpen⟩ q₀ =
      Walk.startsWithByte ⟨g.withoutViews dropped, c, hatchOpen'⟩ q₂ := by
    refine Walk.startsWithByte_eq hres hname ?_ hitems.symm
    rfl
  have hconverted : Walk.itemBytes? g q₀.items =
      Walk.itemBytes? (g.withoutViews dropped) q₂.items := by
    rw [hitems]
    exact Walk.itemBytes?_eq hres q₀.items
  rw [Walk.byteView?_of_honest fun bytes hb => h id q₀ bytes h₀ hb,
    Walk.byteView?_of_honest fun bytes hb => ?_, hstarts, hconverted]
  rw [← hconverted]
  exact h id q₀ bytes h₀ (hbytes bytes hb)

/-- Where private values have nothing to say, the hatch makes no difference to what is heard. -/
theorem Graph.heard_eq_of_silent
    (hsilent : ∀ id, g.Sees roots id true → (g.node id).capability = .absent) {id : NodeId}
    {secret : Bool} (hid : g.Meets roots id secret) :
    Scene.heard ⟨g, c, hatchOpen⟩ secret id =
      Scene.heard ⟨g.withoutViews dropped, c, hatchOpen'⟩ secret id := by
  cases secret with
  | false => simp [Scene.heard, Scene.mayAsk]
  | true =>
      obtain ⟨passed, hsees, hpassed⟩ := hid
      obtain rfl : passed = true := hpassed rfl
      simp [Scene.heard, hsilent id hsees]

end Scenes

/-- **Dumps do not depend on raw views.**  If the views of a graph are honest and no value that is
reached through a private field describes itself, then under every configuration a dump is the
same, with the same log, with the hatch open and closed, and without any of the views; and after
any number of levels the walks have written and logged the same. -/
theorem byte_views_never_show {g : Graph} {roots : List NodeId} (hviews : g.HonestViews)
    (hsilent : ∀ id, g.Sees roots id true → (g.node id).capability = .absent) (c : Config) :
    Scene.dumpText ⟨g, c, true⟩ roots = Scene.dumpText ⟨g, c, false⟩ roots ∧
    (∀ dropped hatchOpen, Scene.dumpText ⟨g, c, hatchOpen⟩ roots =
      Scene.dumpText ⟨g.withoutViews dropped, c, hatchOpen⟩ roots) ∧
    ∀ dropped hatchOpen hatchOpen' n mode, ∀ id ∈ roots,
      (fromStart (Walk.walk ⟨g, c, hatchOpen⟩ n mode id)).text =
        (fromStart (Walk.walk ⟨g.withoutViews dropped, c, hatchOpen'⟩ n mode id)).text ∧
      (fromStart (Walk.walk ⟨g, c, hatchOpen⟩ n mode id)).logs =
        (fromStart (Walk.walk ⟨g.withoutViews dropped, c, hatchOpen'⟩ n mode id)).logs := by
  have hsame : ∀ a : Address, (fun a => a) a = a := fun _ => rfl
  have hroot {id : NodeId} (hid : id ∈ roots) : g.Meets roots id false :=
    ⟨false, .root hid, fun h => h⟩
  have hecho (_ : c.sortKeys = true) (_ : c.echoKeys = true) : Likeness.output.Telling ∧
      ∀ {id : NodeId} {secret : Bool}, g.Meets roots id secret → g.Meets roots id false :=
    ⟨Likeness.output_telling, fun ⟨passed, hsees, _⟩ => ⟨passed, hsees, by simp⟩⟩
  have hdump (hatchOpen hatchOpen' : Bool) (dropped : NodeId → Bool) :
      Scene.dumpText ⟨g, c, hatchOpen⟩ roots =
        Scene.dumpText ⟨g.withoutViews dropped, c, hatchOpen'⟩ roots := by
    refine Likeness.captured_eq_of_output
      ((hviews.kin c hatchOpen hatchOpen' dropped .output).dump_linked
        (Graph.heard_eq_of_silent c _ _ _ hsilent) rfl hecho (Or.inl hsame) ?_)
    exact fun id hid => hroot hid
  refine ⟨?_, fun dropped hatchOpen => hdump _ _ _, ?_⟩
  · exact (hdump true true fun _ => true).trans (hdump false true fun _ => true).symm
  · intro dropped hatchOpen hatchOpen' n mode id hid
    have hwalk : Likeness.output.Tied (fun a => a) Eq false
        (Walk.walk ⟨g, c, hatchOpen⟩ n mode id)
        (Walk.walk ⟨g.withoutViews dropped, c, hatchOpen'⟩ n mode id) :=
      (hviews.kin c hatchOpen hatchOpen' dropped .output).walk_tied
        (Graph.heard_eq_of_silent c _ _ _ hsilent) rfl hecho n (Or.inl hsame) (hroot hid)
    exact Likeness.output_eq (hwalk.fromStart (RenderState.beside_start _ rfl))

/-- A label that describes itself beside two buffers with raw views, the second of them private.
One of their elements is cut down to a byte. -/
def tray : Graph :=
  ⟨#[{ shape := .record [⟨"label", 1, .exported⟩, ⟨"raw", 2, .exported⟩, ⟨"kept", 3, .internal⟩],
       typeName := "Tray" },
     { shape := .text "tray", typeName := "str", capability := .text "a tray" },
     { shape := .slice (some { items := [4, 5], capacity := 2, bytes := some [7, 44] }),
       typeName := "Bytes" },
     { shape := .array { items := [5, 4], capacity := 2, bytes := some [44, 7] },
       typeName := "Bytes" },
     { shape := .uint 7 8, typeName := "u8" },
     { shape := .int 300 16, typeName := "i16" }]⟩

theorem tray_honest : tray.HonestViews := by
  intro id q bytes hq hbytes
  rcases id with _ | _ | _ | _ | _ | _ | id
  · cases hq
  · cases hq
  · obtain rfl := Option.some.inj hq
    obtain rfl := Option.some.inj hbytes
    decide
  · obtain rfl := Option.some.inj hq
    obtain rfl := Option.some.inj hbytes
    decide
  · cases hq
  · cases hq
  · cases hq

/-- Only the second buffer and the elements are reached in private. -/
theorem tray_sees {id : NodeId} {passed : Bool} (h : tray.Sees [0] id passed) :
    passed = true → id = 3 ∨ id = 4 ∨ id = 5 := by
  induction h with
  | root _ => simp
  | @next id child passed hidden _ hchild ih =>
      intro hpassed
      rcases id with _ | _ | _ | _ | _ | _ | id
      · have hfields : (child, hidden) ∈ [(1, false), (2, false), (3, true)] := hchild
        have hpublic : passed = false := by
          cases passed with
          | false => rfl
          | true => simpa using ih rfl
        obtain rfl : hidden = true := by simpa [hpublic] using hpassed
        exact Or.inl (by simpa using hfields)
      · cases hchild
      · have hitems : (child, hidden) ∈ [(4, false), (5, false)] := hchild
        simp only [List.mem_cons, Prod.mk.injEq, List.not_mem_nil, or_false] at hitems
        rcases hitems with ⟨rfl, -⟩ | ⟨rfl, -⟩
        · exact Or.inr (Or.inl rfl)
        · exact Or.inr (Or.inr rfl)
      · have hitems : (child, hidden) ∈ [(5, false), (4, false)] := hchild
        simp only [List.mem_cons, Prod.mk.injEq, List.not_mem_nil, or_false] at hitems
        rcases hitems with ⟨rfl, -⟩ | ⟨rfl, -⟩
        · exact Or.inr (Or.inr rfl)
        · exact Or.inr (Or.inl rfl)
      · cases hchild
      · cases hchild
      · cases hchild

/-- The dump of the tray does not tell its views, though it shows the bytes. -/
theorem tray_hides_views :
    tray.HonestViews ∧ (∀ id, tray.Sees [0] id true → (tray.node id).capability = .absent) ∧
    Scene.dumpText ⟨tray, { byteElementTypes := ["i16"] }, true⟩ [0] =
      Scene.dumpText ⟨tray, { byteElementTypes := ["i16"] }, false⟩ [0] ∧
    Scene.dumpText ⟨tray, { byteElementTypes := ["i16"] }, true⟩ [0] =
      Scene.dumpText ⟨tray.withoutViews fun id => id == 3, { byteElementTypes := ["i16"] }, true⟩
        [0] :=
  have hsilent : ∀ id, tray.Sees [0] id true → (tray.node id).capability = .absent := by
    intro id hid
    rcases tray_sees hid rfl with rfl | rfl | rfl
    · rfl
    · rfl
    · rfl
  have hviews := byte_views_never_show tray_honest hsilent { byteElementTypes := ["i16"] }
  ⟨tray_honest, hsilent, hviews.1, hviews.2.1 _ _⟩

end ValueLens
