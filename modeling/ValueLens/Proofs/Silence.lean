/-
**Values that are not asked.**

A configuration can forbid to ask values for a description.  What they would have answered, or that
they would have failed to, then shows nowhere: not in a dump, not in a compact text, not under a
verb, not in a debug line, and not in the order of the entries of a map, whether that is the order
of a dump, of a verb or of the compact text of a key inside of a key.

This is a statement about two graphs that agree but for the answers of their nodes.  Renders of such
graphs are kin, so walks that hear nothing are alike; the walk of a verb is compared by the rule of
its level; and a debug line is made of dumps and compact texts.

Main definitions:

* `ValueLens.Graph.SameButAnswers` — graphs that differ at most in what their nodes answer.

Main results:

* `ValueLens.Graph.SameButAnswers.verb_walk_eq` — the walk of a verb does not notice;
* `ValueLens.silenced_answers_never_show` — **what values would answer shows nowhere if they are not
  asked.**
-/
import ValueLens.DebugLine
import ValueLens.Proofs.VerbLevel

set_option relaxedAutoImplicit false
set_option autoImplicit false

namespace ValueLens

open Render

/-- **Graphs that differ at most in what their nodes answer.** -/
structure Graph.SameButAnswers (g₁ g₂ : Graph) : Prop where
  size_eq : g₁.size = g₂.size
  shape_eq : ∀ id, g₁.shape id = g₂.shape id
  typeName_eq : ∀ id, g₁.typeName id = g₂.typeName id

/-- **The graph with other answers.** -/
def Graph.answering (g : Graph) (given : NodeId → Capability) : Graph :=
  ⟨g.nodes.mapIdx fun id n => { n with capability := given id }⟩

theorem Graph.sameButAnswers_answering (g : Graph) (given : NodeId → Capability) :
    g.SameButAnswers (g.answering given) where
  size_eq := Array.size_mapIdx.symm
  shape_eq id := by
    simp only [shape, node, answering, Array.getD_eq_getD_getElem?, Array.getElem?_mapIdx]
    cases g.nodes[id]? with
    | _ => simp
  typeName_eq id := by
    simp only [typeName, node, answering, Array.getD_eq_getD_getElem?, Array.getElem?_mapIdx]
    cases g.nodes[id]? with
    | _ => simp

theorem Graph.capability_answering {g : Graph} {id : NodeId} (h : id < g.size)
    (given : NodeId → Capability) : ((g.answering given).node id).capability = given id := by
  have hid : g.nodes[id]? = some g.nodes[id] := Array.getElem?_eq_getElem h
  simp [node, answering, hid]

/-- The log event of a value that fails to describe itself. -/
def Node.failure (typeName message : String) : LogEvent :=
  ⟨.debug, "Capability of " ++ typeName ++ " panicked: " ++ message⟩

/-- There is always a longer text. -/
theorem exists_longer (texts : List String) :
    ∃ longer : String, ∀ t ∈ texts, t.length < longer.length := by
  induction texts with
  | nil => exact ⟨"", by simp⟩
  | cons first texts ih =>
      obtain ⟨longer, hlonger⟩ := ih
      refine ⟨first ++ longer ++ "x", ?_⟩
      intro t ht
      simp only [String.length_append]
      rcases List.mem_cons.1 ht with rfl | ht
      · have hpos : 0 < "x".length := by decide
        omega
      · have hless := hlonger t ht
        omega

namespace Graph.SameButAnswers

variable {g₁ g₂ : Graph} (h : g₁.SameButAnswers g₂) {c : Config} {hatchOpen : Bool}

include h

/-! ### Renders -/

theorem kin (L : Likeness) (c : Config) (hatchOpen : Bool) :
    Kin L id Eq (fun _ _ => True) ⟨g₁, c, hatchOpen⟩ ⟨g₂, c, hatchOpen⟩ :=
  .of_shape_eq rfl rfl h.size_eq h.shape_eq h.typeName_eq fun _ _ => trivial

theorem isSimple_eq (id : NodeId) :
    KeyOrder.isSimple (g₁.shape id) = KeyOrder.isSimple (g₂.shape id) :=
  congrArg KeyOrder.isSimple (h.shape_eq id)

/-- What the natural order sees of a key. -/
theorem ofNode_eq (id : NodeId) :
    SortKey.ofNode g₁ (g₁.size + 1) id = SortKey.ofNode g₂ (g₂.size + 1) id := by
  have hseen := (h.kin .output {} true).ofNode_eq (g₁.size + 1) id
  rwa [← h.size_eq]

theorem grounded (hg : g₁.Grounded) : g₂.Grounded := by
  have hparts : g₂.HasPart = g₁.HasPart := by
    funext id child
    simp only [HasPart, h.shape_eq]
  unfold Grounded at hg ⊢
  rwa [hparts]

section Silenced

variable (hc : c.disableMethods = true)

include hc

omit h in
/-- Nothing is heard of a value that is not asked. -/
theorem heard_eq {id : NodeId} {secret : Bool} :
    Scene.heard ⟨g₁, c, hatchOpen⟩ secret id = Scene.heard ⟨g₂, c, hatchOpen⟩ secret id := by
  simp [Scene.heard, Scene.mayAsk, hc]

theorem walk_tied (n : Nat) (mode : Mode) (id : NodeId) :
    Likeness.output.Tied (fun a => a) Eq false (Walk.walk ⟨g₁, c, hatchOpen⟩ n mode id)
      (Walk.walk ⟨g₂, c, hatchOpen⟩ n mode id) :=
  (h.kin .output c hatchOpen).walk_tied (fun _ => heard_eq hc) rfl
    (fun _ _ => ⟨Likeness.output_telling, fun _ => trivial⟩) n (Or.inl fun _ => rfl) trivial

theorem dumpText_eq (ids : List NodeId) :
    Scene.dumpText ⟨g₁, c, hatchOpen⟩ ids = Scene.dumpText ⟨g₂, c, hatchOpen⟩ ids :=
  Likeness.captured_eq_of_output
    ((h.kin .output c hatchOpen).dump_linked (fun _ => heard_eq hc) rfl
      (fun _ _ => ⟨Likeness.output_telling, fun _ => trivial⟩) (Or.inl fun _ => rfl)
      fun _ _ => trivial)

theorem render_eq (types details : Bool) (id : NodeId) :
    Scene.render ⟨g₁, c, hatchOpen⟩ types details id =
      Scene.render ⟨g₂, c, hatchOpen⟩ types details id :=
  Likeness.captured_eq_of_output
    ((h.kin .output c hatchOpen).present_linked (fun _ => heard_eq hc) rfl
      (fun _ _ => ⟨Likeness.output_telling, fun _ => trivial⟩) (Or.inl fun _ => rfl) trivial)

/-! ### Verbs -/

theorem badMark_eq (v : Verb) (id : NodeId) :
    Verb.badMark ⟨g₁, c, hatchOpen⟩ v id = Verb.badMark ⟨g₂, c, hatchOpen⟩ v id := by
  unfold Verb.badMark
  rw [h.render_eq hc]
  simp only [h.typeName_eq]

omit hc in
theorem byteRun?_eq (v : Verb) (q : Sequence) :
    Verb.byteRun? ⟨g₁, c, hatchOpen⟩ v q = Verb.byteRun? ⟨g₂, c, hatchOpen⟩ v q := by
  have hbytes (items : List NodeId) : Walk.itemBytes? g₁ items = Walk.itemBytes? g₂ items :=
    Walk.itemBytes?_eq (h.kin .output c hatchOpen).resembles items
  simp only [Verb.byteRun?, hbytes, h.typeName_eq]

omit hc in
/-- While locks are held the graphs differ in no more. -/
protected theorem holding (held : List Address) :
    (g₁.holding held).SameButAnswers (g₂.holding held) where
  size_eq := by simpa using h.size_eq
  shape_eq id := by simp [h.shape_eq id]
  typeName_eq id := by simpa using h.typeName_eq id

/-- The two scenes look alike to a verb everywhere. -/
theorem verb_alike (v : Verb) (depth : Nat) (id : NodeId) :
    Verb.Alike .equal ⟨g₁, c, hatchOpen⟩ ⟨g₂, c, hatchOpen⟩ v depth id where
  shape := .of_eq (h.shape_eq id)
  typeName_eq := h.typeName_eq id
  capability_eq hmethods := by simp [hc] at hmethods
  run_eq _ := h.byteRun?_eq v _
  order {es} _ := by
    refine KeyOrder.sort_congr rfl (fun e _ => h.isSimple_eq e.key)
      (fun e _ => h.ofNode_eq e.key) ?_ fun _ _ e _ => h.render_eq hc _ _ e.key
    simp [hc]
  mark _ := h.badMark_eq hc v id

/-- **The walk of a verb does not notice what values would answer.** -/
theorem verb_walk_eq (v : Verb) (l : Layout) (n depth : Nat) (id : NodeId) :
    Verb.walk ⟨g₁, c, hatchOpen⟩ v l n depth id = Verb.walk ⟨g₂, c, hatchOpen⟩ v l n depth id := by
  induction n generalizing g₁ g₂ depth id with
  | zero => rfl
  | succ n ih =>
      have halike : Verb.Alike .equal ⟨g₁, c, hatchOpen⟩ ⟨g₂, c, hatchOpen⟩ v depth id :=
        h.verb_alike hc v depth id
      exact Verb.level_congruent (C := .equal) rfl halike fun d child _ =>
        ⟨ih h d child, fun a _ => ih (h.holding [a]) d child⟩

/-- Neither does the verb for addresses. -/
theorem addressOf_eq (l : Layout) (n : Nat) (id : NodeId) :
    Verb.addressOf ⟨g₁, c, hatchOpen⟩ l n id = Verb.addressOf ⟨g₂, c, hatchOpen⟩ l n id := by
  induction n generalizing id with
  | zero => rfl
  | succ n ih => simp only [Verb.addressOf, h.shape_eq id, ih, h.badMark_eq hc]

theorem apply_eq (v : Verb) (l : Layout) (id : NodeId) :
    v.apply ⟨g₁, c, hatchOpen⟩ l id = v.apply ⟨g₂, c, hatchOpen⟩ l id := by
  have hfuel : Verb.fuel g₁ = Verb.fuel g₂ := by simp only [Verb.fuel, h.size_eq]
  cases v with
  | pointer => simp only [Verb.apply, hfuel, h.addressOf_eq hc]
  | _ => simp only [Verb.apply, hfuel, h.verb_walk_eq hc]

theorem format_eq (conversion : Conversion) (l : Layout) (id : NodeId) :
    Scene.format ⟨g₁, c, hatchOpen⟩ conversion l id =
      Scene.format ⟨g₂, c, hatchOpen⟩ conversion l id := by
  cases conversion with
  | whole => simp only [Scene.format, h.render_eq hc]
  | verb v => exact h.apply_eq hc v l id

/-! ### Debug lines -/

omit hc in
theorem isComposite?_eq (n : Nat) (id : NodeId) : g₁.isComposite? n id = g₂.isComposite? n id := by
  induction n generalizing id with
  | zero => rfl
  | succ n ih => simp only [Graph.isComposite?, h.shape_eq id, ih]

theorem debugPart_eq (id : NodeId) :
    Scene.debugPart ⟨g₁, c, hatchOpen⟩ id = Scene.debugPart ⟨g₂, c, hatchOpen⟩ id := by
  have hfuel : g₁.chainFuel = g₂.chainFuel := by simp only [Graph.chainFuel, h.size_eq]
  simp only [Scene.debugPart, hc, if_true, hfuel, h.isComposite?_eq, h.dumpText_eq hc,
    h.render_eq hc]

theorem debugLine_eq (ids : List NodeId) :
    Scene.debugLine ⟨g₁, c, hatchOpen⟩ ids = Scene.debugLine ⟨g₂, c, hatchOpen⟩ ids := by
  have hparts : Scene.debugParts ⟨g₁, c, hatchOpen⟩ ids =
      Scene.debugParts ⟨g₂, c, hatchOpen⟩ ids := by
    induction ids with
    | nil => rfl
    | cons id rest ih => simp only [Scene.debugParts, h.debugPart_eq hc, ih]
  simp only [Scene.debugLine, hparts]

end Silenced

end Graph.SameButAnswers

/-- **What values would answer shows nowhere if they are not asked.**  Under a configuration that
forbids to ask, two graphs that differ at most in what their nodes answer have the same dumps and
compact texts, the same texts under every conversion and layout, and the same debug lines, all with
the same log and the same ending; and after any number of levels the walks have written and logged
the same. -/
theorem silenced_answers_never_show {g₁ g₂ : Graph} (h : g₁.SameButAnswers g₂) (c : Config)
    (hc : c.disableMethods = true) (hatchOpen : Bool) :
    (∀ ids, Scene.dumpText ⟨g₁, c, hatchOpen⟩ ids = Scene.dumpText ⟨g₂, c, hatchOpen⟩ ids) ∧
    (∀ types details id, Scene.render ⟨g₁, c, hatchOpen⟩ types details id =
      Scene.render ⟨g₂, c, hatchOpen⟩ types details id) ∧
    (∀ v l id, Verb.apply ⟨g₁, c, hatchOpen⟩ v l id = Verb.apply ⟨g₂, c, hatchOpen⟩ v l id) ∧
    (∀ conversion l id, Scene.format ⟨g₁, c, hatchOpen⟩ conversion l id =
      Scene.format ⟨g₂, c, hatchOpen⟩ conversion l id) ∧
    (∀ ids, Scene.debugLine ⟨g₁, c, hatchOpen⟩ ids = Scene.debugLine ⟨g₂, c, hatchOpen⟩ ids) ∧
    (∀ ids, Scene.logDebug ⟨g₁, c, hatchOpen⟩ ids = Scene.logDebug ⟨g₂, c, hatchOpen⟩ ids) ∧
    (∀ n mode id,
      (fromStart (Walk.walk ⟨g₁, c, hatchOpen⟩ n mode id)).text =
        (fromStart (Walk.walk ⟨g₂, c, hatchOpen⟩ n mode id)).text ∧
      (fromStart (Walk.walk ⟨g₁, c, hatchOpen⟩ n mode id)).logs =
        (fromStart (Walk.walk ⟨g₂, c, hatchOpen⟩ n mode id)).logs) ∧
    ∀ v l n depth id, Verb.walk ⟨g₁, c, hatchOpen⟩ v l n depth id =
      Verb.walk ⟨g₂, c, hatchOpen⟩ v l n depth id := by
  refine ⟨h.dumpText_eq hc, h.render_eq hc, h.apply_eq hc, h.format_eq hc, h.debugLine_eq hc,
    ?_, ?_, h.verb_walk_eq hc⟩
  · intro ids
    simp only [Scene.logDebug, h.debugLine_eq hc]
  · intro n mode id
    exact Likeness.output_eq
      ((h.walk_tied hc n mode id).fromStart (RenderState.beside_start _ rfl))

/-- A record that leads back to itself, and in it a map whose keys may describe themselves. -/
def chorus (whole first second : Capability) : Graph :=
  ⟨#[{ shape := .record [⟨"parts", 1, .exported⟩, ⟨"next", 4, .internal⟩], typeName := "Chorus",
       capability := whole },
     { shape := .map (some [⟨2, 5⟩, ⟨3, 5⟩]), typeName := "Map" },
     { shape := .record [⟨"pitch", 5, .exported⟩], typeName := "Voice", capability := first },
     { shape := .record [], typeName := "Voice", capability := second },
     { shape := .pointer 0x10 (some 0), typeName := "Link" },
     { shape := .uint 7 8, typeName := "u8", capability := second }]⟩

theorem chorus_sameButAnswers (whole first second whole' first' second' : Capability) :
    (chorus whole first second).SameButAnswers (chorus whole' first' second') where
  size_eq := rfl
  shape_eq := by
    rintro (_ | _ | _ | _ | _ | _ | id) <;> rfl
  typeName_eq := by
    rintro (_ | _ | _ | _ | _ | _ | id) <;> rfl

/-- Voices that would order the map, be taken for an error or fail to answer: where none is asked
the dump, the hexadecimal form and the debug line are the same, though the dumps differ where they
are asked. -/
theorem chorus_silenced :
    (chorus .absent (.text "b") (.text "a")).SameButAnswers
      (chorus (.error "off key") .absent (.panicked "hoarse")) ∧
    (let silenced : Config :=
      { disableMethods := true, sortKeys := true, echoKeys := true, breakOnError := true }
     let first (c : Config) : Scene := ⟨chorus .absent (.text "b") (.text "a"), c, true⟩
     let second (c : Config) : Scene :=
      ⟨chorus (.error "off key") .absent (.panicked "hoarse"), c, true⟩
     ((first silenced).dumpText [0] = (second silenced).dumpText [0] ∧
      Verb.lowerHex.apply (first silenced) {} 0 = Verb.lowerHex.apply (second silenced) {} 0 ∧
      (first silenced).logDebug [0] = (second silenced).logDebug [0]) ∧
     (first {}).dumpText [0] ≠ (second {}).dumpText [0]) := by
  have hsame := chorus_sameButAnswers .absent (.text "b") (.text "a") (.error "off key") .absent
    (.panicked "hoarse")
  obtain ⟨hdump, -, hverb, -, -, hlog, -⟩ := silenced_answers_never_show hsame
    { disableMethods := true, sortKeys := true, echoKeys := true, breakOnError := true } rfl true
  exact ⟨hsame, ⟨hdump _, hverb _ _ _, hlog _⟩, by decide +kernel⟩

end ValueLens
