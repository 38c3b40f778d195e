/-
**How far a verb reaches.**

The walk of a verb has no path to keep it from going round in circles.  It has its depth: only at
depth zero, which is left for good by every step but that into a dynamic holder, does it go behind
an indirection.  So it goes behind one at most, which stands at the end of the holders around the
root; it ends on every grounded graph; and nothing that lies behind another indirection matters.

That one indirection is followed at most is said by a walk that notes each time it goes behind one:
apart from its notes it is the same as the walk of the verb, and there is at most one note.  That
nothing else matters is said of two graphs that look alike at all that is reached, at the depths at
which it is reached; below the top an indirection looks like any other with its address.

Main definitions:

* `ValueLens.Verb.opens?` — what a verb goes to behind an indirection;
* `ValueLens.Verb.noted` — **the walk of a verb that notes when it goes behind an indirection**;
* `ValueLens.Verb.Reaches` — what a verb reaches from a root, and at which depth;
* `ValueLens.Verb.SameInReach` — graphs that look alike at all that is reached.

Main results:

* `ValueLens.Verb.walk_stable` — with enough fuel the walk ends, and more changes nothing;
* `ValueLens.Verb.noted_output`, `ValueLens.Verb.noted_steps` — one indirection at most is
  followed;
* `ValueLens.Verb.SameInReach.walk_eq` — what is not reached does not matter;
* `ValueLens.Verb.reaches_behind_one_indirection` — **a verb ends, goes behind one indirection at
  most, and depends on nothing behind another.**
-/
import ValueLens.Proofs.VerbLevel

set_option relaxedAutoImplicit false
set_option autoImplicit false

namespace ValueLens

open Render

/-! ### Nodes and bytes -/

theorem Graph.node_congr {g₁ g₂ : Graph} {id : NodeId} (hshape : g₁.shape id = g₂.shape id)
    (hname : g₁.typeName id = g₂.typeName id)
    (hcapability : (g₁.node id).capability = (g₂.node id).capability) :
    g₁.node id = g₂.node id := by
  simp only [shape, typeName] at hshape hname
  generalize g₁.node id = n₁ at hshape hname hcapability
  generalize g₂.node id = n₂ at hshape hname hcapability
  cases n₁
  cases n₂
  simp_all

theorem Walk.itemBytes?_congr {g₁ g₂ : Graph} {items : List NodeId}
    (h : ∀ id ∈ items, (g₁.shape id).toByte? = (g₂.shape id).toByte?) :
    itemBytes? g₁ items = itemBytes? g₂ items := by
  induction items with
  | nil => rfl
  | cons id items ih =>
      have hrest : itemBytes? g₁ items = itemBytes? g₂ items :=
        ih fun child hchild => h child (by simp [hchild])
      simp only [itemBytes?, List.mapM_cons] at hrest ⊢
      rw [h id (by simp), hrest]

namespace Verb

variable {s : Scene} {v : Verb} {l : Layout} {depth : Nat} {id : NodeId}

/-- A scene looks alike to itself, if its orders and marks are congruent to themselves. -/
theorem Alike.self {C : Trace.Congruence}
    (horder : ∀ es, C.Rel (KeyOrder.sort s (s.render true false) (!s.config.disableMethods) es)
      (KeyOrder.sort s (s.render true false) (!s.config.disableMethods) es))
    (hmark : (s.graph.shape id).isLeaf = true → C.Rel (badMark s v id) (badMark s v id)) :
    Alike C s s v depth id where
  shape := .same _
  typeName_eq := rfl
  capability_eq _ := rfl
  run_eq _ := rfl
  order _ := horder _
  mark := hmark

/-! ### Fuel -/

/-- The fuel that a value needs: a round of parts before the one indirection, and one after it. -/
def cost (g : Graph) (rank : NodeId → Nat) (depth : Nat) (id : NodeId) : Nat :=
  (if depth = 0 then g.size + 1 else 0) + rank id + 1

theorem Descends.cost_lt {rank : NodeId → Nat} (hle : ∀ id, rank id ≤ s.graph.size)
    (hlt : ∀ id child, s.graph.HasPart id child → rank child < rank id) {d : Nat} {child : NodeId}
    (h : Descends s depth id d child) :
    cost s.graph rank d child < cost s.graph rank depth id := by
  unfold cost
  cases h with
  | held h =>
      have hrank := hlt id child (by simp [Graph.HasPart, h, Shape.parts])
      omega
  | part h _ =>
      have hrank := hlt id child h
      simp only [Nat.add_eq_zero_iff, one_ne_zero, and_false, if_false]
      omega
  | target h hdepth =>
      have hrank := hle child
      simp only [hdepth, one_ne_zero, if_true, if_false]
      omega
  | content h hdepth _ =>
      have hrank := hle child
      simp only [hdepth, one_ne_zero, if_true, if_false]
      omega

theorem cost_le_fuel {rank : NodeId → Nat} {g : Graph} (hle : ∀ id, rank id ≤ g.size)
    (depth : Nat) (id : NodeId) : cost g rank depth id ≤ fuel g := by
  have hrank := hle id
  unfold cost fuel
  split
  · omega
  · omega

/-- **With enough fuel the walk of a verb ends, and more fuel changes nothing.** -/
theorem walk_stable (hecho : s.config.echoKeys = false) {rank : NodeId → Nat}
    (hle : ∀ id, rank id ≤ s.graph.size)
    (hlt : ∀ id child, s.graph.HasPart id child → rank child < rank id) (n m : Nat)
    (hn : cost s.graph rank depth id ≤ n) (hm : cost s.graph rank depth id ≤ m) :
    (Bond.same True).Holds (walk s v l n depth id) (walk s v l m depth id) := by
  induction n generalizing s m depth id with
  | zero => simp [cost] at hn
  | succ n ih =>
      obtain ⟨m, rfl⟩ : ∃ k, m = k + 1 := ⟨m - 1, by unfold cost at hm; omega⟩
      have halike : Alike (Bond.same True).congruence s s v depth id := by
        refine .self (fun es => ?_) fun hleaf => ?_
        · exact KeyOrder.sort_holds (fun hkeys => by simp [hecho] at hkeys) _ es
        · obtain ⟨t, ht⟩ :=
            Option.isSome_iff_exists.1 (s.render_leaf_isSome hecho hleaf false false)
          refine ⟨rfl, rfl, fun _ => ?_⟩
          unfold badMark
          rw [Trace.bind_of_some ht]
          rfl
      refine level_congruent (C := (Bond.same True).congruence) rfl halike fun d child hnext => ?_
      have hcost := hnext.cost_lt hle hlt
      refine ⟨ih hecho hle hlt m (by omega) (by omega), fun a _ => ?_⟩
      -- a lock that is held changes neither the size of the graph nor the parts of a value
      have hcost' : cost (s.graph.holding [a]) rank d child = cost s.graph rank d child := by
        simp [cost]
      refine ih (s := s.holding [a]) hecho (by simpa using hle) (by simpa using hlt) m ?_ ?_
      · rw [Scene.graph_holding, hcost']
        omega
      · rw [Scene.graph_holding, hcost']
        omega

/-! ### Notes -/

/-- **What a verb goes to behind an indirection**: nothing below the top, at the top what a pointer
leads to, and what a guard gives when it is acquired. -/
def opens? (s : Scene) (depth : Nat) (id : NodeId) : Option NodeId :=
  match depth, s.graph.shape id with
  | 0, .pointer _ target => target
  | 0, .guarded a content lock =>
      if s.config.disableGuardResolution then none
      else (Shape.guarded a content lock).acquire?
  | _, _ => none

/-- Notes what is found behind an indirection. -/
def note (s : Scene) (depth : Nat) (id : NodeId) : Trace Unit :=
  match opens? s depth id with
  | some t => Trace.step (.reached t)
  | none => pure ()

/-- **The walk of a verb that notes when it goes behind an indirection.** -/
def noted (s : Scene) (v : Verb) (l : Layout) : Nat → Below
  | 0 => fun _ _ => Trace.stalled
  | fuel + 1 => fun depth id => do
      note s depth id
      level s v l (noted s v l fuel) (fun a => noted (s.holding [a]) v l fuel) depth id

theorem opens?_of_pos (hdepth : 0 < depth) : opens? s depth id = none := by
  obtain ⟨d, rfl⟩ := Nat.exists_eq_succ_of_ne_zero (Nat.pos_iff_ne_zero.1 hdepth)
  rfl

/-- **Nothing is missed by the notes**: the walk descends to what a holder holds, to a part one
level deeper, or to what is noted. -/
theorem Descends.held_or_part_or_noted {d : Nat} {child : NodeId}
    (h : Descends s depth id d child) :
    (s.graph.shape id = .holder (some child) ∧ d = depth) ∨
      (s.graph.HasPart id child ∧ d = depth + 1) ∨ (opens? s depth id = some child ∧ d = 1) := by
  cases h with
  | held h => exact Or.inl ⟨h, rfl⟩
  | part h _ => exact Or.inr (Or.inl ⟨h, rfl⟩)
  | target h hdepth =>
      subst hdepth
      exact Or.inr (Or.inr ⟨by simp only [opens?, h], rfl⟩)
  | content h hdepth hresolved =>
      subst hdepth
      refine Or.inr (Or.inr ⟨?_, rfl⟩)
      cases hs : s.graph.shape id with
      | guarded a content lock =>
          rw [hs] at h
          simp only [opens?, hs, hresolved, Bool.false_eq_true, if_false]
          exact h
      | _ => simp [hs, Shape.acquire?] at h

/-- The depth is raised by every step but that into a holder. -/
theorem Descends.held_or_deeper {d : Nat} {child : NodeId} (h : Descends s depth id d child) :
    (s.graph.shape id = .holder (some child) ∧ d = depth) ∨ 0 < d := by
  rcases h.held_or_part_or_noted with h | ⟨-, rfl⟩ | ⟨-, rfl⟩
  · exact Or.inl h
  · exact Or.inr (Nat.succ_pos _)
  · exact Or.inr Nat.one_pos

/-- A holder is seen through. -/
theorem level_of_holder {below : Below} {locked : Address → Below} {content : NodeId}
    (h : s.graph.shape id = .holder (some content)) :
    level s v l below locked depth id = below depth content := by
  have hshape : (s.graph.node id).shape = .holder (some content) := h
  have hheard : heard s id = pure .absent := by simp [heard, hshape, isAsked]
  have hstructural : structural s v l below locked depth id = below depth content := by
    simp only [structural, h]
  rw [level_eq, hheard, pure_bind]
  exact hstructural

/-- The same output, whatever was noted. -/
def sameOutput : Trace.Congruence where
  Rel := Likeness.output.Linked Eq
  bind h hk := by
    refine (h.knowing fun a ha => ha).bind ?_
    rintro a _ ⟨rfl, ha⟩
    exact hk a ha
  refl _ _ := .of_refl (fun _ => rfl) _

/-- **Apart from its notes the walk that notes is the walk of the verb.** -/
theorem noted_output (n depth : Nat) (id : NodeId) :
    Likeness.output.Linked Eq (noted s v l n depth id) (walk s v l n depth id) := by
  induction n generalizing s depth id with
  | zero => exact .of_refl (fun _ => rfl) _
  | succ n ih =>
      have halike : Alike sameOutput s s v depth id :=
        .self (fun es => .of_refl (fun _ => rfl) _) fun _ => .of_refl (fun _ => rfl) _
      have hlevel : Likeness.output.Linked Eq
          (level s v l (noted s v l n) (fun a => noted (s.holding [a]) v l n) depth id)
          (level s v l (walk s v l n) (fun a => walk (s.holding [a]) v l n) depth id) :=
        level_congruent (C := sameOutput) rfl halike fun d child _ =>
          ⟨ih d child, fun a _ => ih d child⟩
      unfold noted note
      cases opens? s depth id with
      | none => exact hlevel
      | some t =>
          -- a note is not part of the output
          rw [Trace.bind_of_some rfl]
          exact hlevel

/-- No steps. -/
def stepless : Trace.Congruence where
  Rel t _ := ∀ e ∈ t.effects, e.step? = none
  bind h hk e he := by
    rcases Trace.mem_effects_bind he with he | ⟨a, ha, he⟩
    · exact h e he
    · exact hk a ha e he
  refl he _ := he

/-- A level takes no step of its own. -/
theorem level_stepless {below : Below} {locked : Address → Below}
    (h : ∀ d child, Descends s depth id d child →
      (∀ e ∈ (below d child).effects, e.step? = none) ∧
        ∀ a, 0 < d → ∀ e ∈ (locked a d child).effects, e.step? = none) :
    ∀ e ∈ (level s v l below locked depth id).effects, e.step? = none := by
  have halike : Alike stepless s s v depth id := by
    refine .self (fun es => ?_) fun _ => ?_
    · exact KeyOrder.sort_stepless (fun key => Trace.captured_stepless _) _ es
    · exact stepless.bind (Trace.captured_stepless _) fun _ _ => .write _
  have hlevel : stepless.Rel (level s v l below locked depth id)
      (level s v l below locked depth id) :=
    level_congruent (C := stepless) rfl halike h
  exact hlevel

/-- Below the top nothing is noted. -/
theorem noted_stepless (n : Nat) (hdepth : 0 < depth) :
    ∀ e ∈ (noted s v l n depth id).effects, e.step? = none := by
  induction n generalizing s depth id with
  | zero => simp [noted, Trace.stalled]
  | succ n ih =>
      simp only [noted, note, opens?_of_pos hdepth, pure_bind]
      refine level_stepless fun d child hnext => ⟨ih ?_, fun a hd => ih hd⟩
      rcases hnext.held_or_deeper with ⟨-, rfl⟩ | hd
      · exact hdepth
      · exact hd

/-- **One indirection at most is followed**: it stands at the end of the holders around the
root. -/
theorem noted_steps (n : Nat) (root : NodeId) :
    (noted s v l n 0 root).steps = [] ∨
      ∃ top t, Relation.ReflTransGen
          (fun id content => s.graph.shape id = .holder (some content)) root top ∧
        opens? s 0 top = some t ∧ (noted s v l n 0 root).steps = [.reached t] := by
  have hnone {t : Trace Unit} (ht : ∀ e ∈ t.effects, e.step? = none) : t.steps = [] :=
    List.filterMap_eq_nil_iff.2 ht
  induction n generalizing root with
  | zero => exact Or.inl rfl
  | succ n ih =>
      by_cases hholder : ∃ content, s.graph.shape root = .holder (some content)
      · obtain ⟨content, hs⟩ := hholder
        have hnoted : noted s v l (n + 1) 0 root = noted s v l n 0 content := by
          simp only [noted, note, opens?, hs, pure_bind, level_of_holder hs]
        rw [hnoted]
        rcases ih content with hno | ⟨top, t, hheld, hopens, hsteps⟩
        · exact Or.inl hno
        · exact Or.inr ⟨top, t, .head hs hheld, hopens, hsteps⟩
      · have hlevel : ∀ e ∈ (level s v l (noted s v l n)
            (fun a => noted (s.holding [a]) v l n) 0 root).effects, e.step? = none := by
          refine level_stepless fun d child hnext =>
            ⟨noted_stepless n ?_, fun a hd => noted_stepless n hd⟩
          rcases hnext.held_or_deeper with ⟨hs, -⟩ | hd
          · exact absurd ⟨child, hs⟩ hholder
          · exact hd
        cases hopens : opens? s 0 root with
        | none =>
            left
            simp only [noted, note, hopens, pure_bind]
            exact hnone hlevel
        | some t =>
            right
            refine ⟨root, t, .refl, hopens, ?_⟩
            simp only [noted, note, hopens]
            rw [Trace.bind_of_some rfl]
            exact congrArg (.reached t :: ·) (hnone hlevel)

/-! ### Locks -/

/-- **Below the top locks make no difference**, unless keys are shown as texts. -/
theorem walk_holding (hecho : s.config.echoKeys = false) (held : List Address) (n : Nat)
    (hdepth : 0 < depth) : walk (s.holding held) v l n depth id = walk s v l n depth id := by
  induction n generalizing held depth id with
  | zero => rfl
  | succ n ih =>
      have hshape : ((s.graph.shape id).holding held).SameAt depth (s.graph.shape id) := by
        cases s.graph.shape id with
        | guarded a content lock => exact .guarded hdepth a content content _ lock
        | _ => exact .same _
      have halike : Alike .equal (s.holding held) s v depth id := {
        shape := by simpa using hshape
        typeName_eq := by simp
        capability_eq := fun _ => by simp
        run_eq := fun _ => by simp [byteRun?]
        order := fun _ => KeyOrder.sort_congr rfl (fun e _ => by simp) (fun e _ => by simp)
          (fun _ _ => KeyOrder.descriptions?_congr fun e _ =>
            Node.describe_congr (by simp) (by simp)) fun hkeys => by simp [hecho] at hkeys
        mark := fun hleaf => by
          -- a guard is no leaf, and nothing else is changed by a lock
          have hself : (s.graph.shape id).holding held = s.graph.shape id := by
            refine Shape.holding_eq_self held _ fun a content lock hs => ?_
            simp [hs, Shape.holding, Shape.isLeaf] at hleaf
          have hnode : (s.graph.holding held).node id = s.graph.node id :=
            Graph.node_congr (by simpa using hself) (by simp) (by simp)
          have hrender := (s.holding held).render_leaf_congr (g := s.graph) hleaf hnode false false
          change badMark (s.holding held) v id = badMark s v id
          simp only [badMark, hrender, Scene.graph_holding, Graph.typeName_holding]
          rfl }
      refine level_congruent (C := .equal) rfl halike fun d child hnext => ?_
      have hd' : 0 < d := by
        rcases hnext.held_or_deeper with ⟨-, rfl⟩ | hd
        · exact hdepth
        · exact hd
      refine ⟨ih held hd', fun a hd => ?_⟩
      calc walk ((s.holding held).holding [a]) v l n d child
          = walk (s.holding ([a] ++ held)) v l n d child := by rw [Scene.holding_holding]
        _ = walk s v l n d child := ih _ hd
        _ = walk (s.holding [a]) v l n d child := (ih _ hd).symm

/-- A level of the walk, where locks make no difference. -/
theorem walk_succ (hecho : s.config.echoKeys = false) (n : Nat) :
    walk s v l (n + 1) depth id =
      level s v l (walk s v l n) (fun _ => walk s v l n) depth id := by
  refine level_congruent (C := .equal) rfl (.self (fun _ => rfl) fun _ => rfl) fun d child _ => ?_
  exact ⟨rfl, fun a hd => walk_holding hecho [a] n hd⟩

/-! ### What is reached -/

/-- **What a verb reaches from a root, and at which depth.** -/
inductive Reaches (s : Scene) (root : NodeId) : Nat → NodeId → Prop
  | root : Reaches s root 0 root
  | next {depth d : Nat} {id child : NodeId} (h : Reaches s root depth id)
      (hnext : Descends s depth id d child) : Reaches s root d child

/-- The parts of what is reached are reached one level deeper. -/
theorem Reaches.part {root : NodeId} (hid : Reaches s root depth id) {shape : Shape}
    (hs : s.graph.shape id = shape) (hholder : shape.isHolder = false) {child : NodeId}
    (hchild : child ∈ shape.parts) : Reaches s root (depth + 1) child := by
  subst hs
  exact hid.next (.part hchild hholder)

/-- **What is reached at depth zero is held by holders alone.** -/
theorem Reaches.held_of_top {root : NodeId} (h : Reaches s root 0 id) :
    Relation.ReflTransGen (fun id content => s.graph.shape id = .holder (some content))
      root id := by
  generalize hd : 0 = d at h
  induction h with
  | root => exact .refl
  | next _ hnext ih =>
      rcases hnext.held_or_deeper with ⟨hs, rfl⟩ | hpos
      · exact .tail (ih hd) hs
      · omega

/-- **Graphs that look alike at all that is reached.** -/
structure SameInReach (s : Scene) (root : NodeId) (g : Graph) : Prop where
  shape : ∀ {depth id}, Reaches s root depth id →
    (s.graph.shape id).SameAt depth (g.shape id)
  typeName_eq : ∀ {depth id}, Reaches s root depth id → s.graph.typeName id = g.typeName id
  capability_eq : ∀ {depth id}, Reaches s root depth id →
    (s.graph.node id).capability = (g.node id).capability

namespace SameInReach

variable {root : NodeId} {g : Graph} (h : SameInReach s root g)

include h

theorem node_eq_of_leaf (hid : Reaches s root depth id)
    (hleaf : (s.graph.shape id).isLeaf = true) : s.graph.node id = g.node id := by
  have hshape : s.graph.shape id = g.shape id := by
    have hsame := h.shape hid
    generalize s.graph.shape id = shape₁ at hsame hleaf
    generalize g.shape id = shape₂ at hsame
    cases hsame with
    | same => rfl
    | pointer _ a target₁ target₂ => simp [Shape.isLeaf] at hleaf
    | guarded _ a content₁ content₂ lock₁ lock₂ => simp [Shape.isLeaf] at hleaf
  exact Graph.node_congr hshape (h.typeName_eq hid) (h.capability_eq hid)

/-- What the natural order sees of a key. -/
theorem ofNode_eq (hid : Reaches s root depth id) (n : Nat) :
    SortKey.ofNode s.graph n id = SortKey.ofNode g n id := by
  induction n generalizing depth id with
  | zero => simp only [SortKey.ofNode, h.typeName_eq hid]
  | succ n ih =>
      have hitem {q : Sequence} (hs : s.graph.shape id = .array q) {child : NodeId}
          (hchild : child ∈ q.items) : SortKey.ofNode s.graph n child = SortKey.ofNode g n child :=
        ih (hid.part hs rfl hchild)
      have hsame := h.shape hid
      have hname := h.typeName_eq hid
      unfold SortKey.ofNode
      generalize s.graph.shape id = shape₁ at hsame hitem
      generalize g.shape id = shape₂ at hsame
      cases hsame with
      | same =>
          cases shape₁ with
          | array q =>
              simp only [SortKey.array.injEq]
              exact List.map_congr_left fun child hchild => hitem rfl hchild
          | _ => simp only [hname]
      | _ => simp only [hname]

theorem isSimple_eq (hid : Reaches s root depth id) :
    KeyOrder.isSimple (s.graph.shape id) = KeyOrder.isSimple (g.shape id) := by
  have hsame := h.shape hid
  generalize s.graph.shape id = shape₁ at hsame
  generalize g.shape id = shape₂ at hsame
  cases hsame with
  | _ => rfl

theorem toByte?_eq (hid : Reaches s root depth id) :
    (s.graph.shape id).toByte? = (g.shape id).toByte? := by
  have hsame := h.shape hid
  generalize s.graph.shape id = shape₁ at hsame
  generalize g.shape id = shape₂ at hsame
  cases hsame with
  | _ => rfl

/-- The bytes of a sequence are those of elements that are reached. -/
theorem byteRun?_eq (v : Verb) {q : Sequence}
    (hitems : ∀ child ∈ q.items, Reaches s root depth child) :
    byteRun? s v q = byteRun? { s with graph := g } v q := by
  have hbytes : Walk.itemBytes? s.graph q.items = Walk.itemBytes? g q.items :=
    Walk.itemBytes?_congr fun child hchild => h.toByte?_eq (hitems child hchild)
  unfold byteRun?
  cases q.bytes with
  | some bytes => rfl
  | none =>
      cases hq : q.items with
      | nil => rfl
      | cons first rest =>
          have hfirst : s.graph.typeName first = g.typeName first :=
            h.typeName_eq (hitems first (by simp [hq]))
          rw [hq] at hbytes
          simp only [hfirst, hbytes]

variable (hecho : s.config.echoKeys = false) (hg : s.graph.Grounded) (hg' : g.Grounded)

include hecho hg hg'

theorem order_eq (hid : Reaches s root depth id) {es : List Entry}
    (hs : s.graph.shape id = .map (some es)) :
    KeyOrder.sort s (s.render true false) (!s.config.disableMethods) es =
      KeyOrder.sort { s with graph := g } ({ s with graph := g }.render true false)
        (!s.config.disableMethods) es := by
  have hkey {e : Entry} (he : e ∈ es) : Reaches s root (depth + 1) e.key :=
    hid.part hs rfl (List.mem_flatMap.2 ⟨e, he, by simp⟩)
  obtain ⟨rank, hle, hlt⟩ := hg.exists_rank
  obtain ⟨rank', hle', hlt'⟩ := hg'.exists_rank
  refine KeyOrder.sort_congr rfl (fun e he => h.isSimple_eq (hkey he)) (fun e he => ?_)
    (fun _ _ => ?_) fun hkeys => ?_
  · -- more fuel changes nothing in what is seen of a key, so both graphs may take as much
    have hrank := hle e.key
    have hrank' := hle' e.key
    calc SortKey.ofNode s.graph (s.graph.size + 1) e.key
        = SortKey.ofNode s.graph (s.graph.size + g.size + 1) e.key :=
          SortKey.ofNode_stable hlt _ _ _ (by omega) (by omega)
      _ = SortKey.ofNode g (s.graph.size + g.size + 1) e.key := h.ofNode_eq (hkey he) _
      _ = SortKey.ofNode g (g.size + 1) e.key :=
          SortKey.ofNode_stable hlt' _ _ _ (by omega) (by omega)
  · exact KeyOrder.descriptions?_congr fun e he =>
      Node.describe_congr (h.typeName_eq (hkey he)) (h.capability_eq (hkey he))
  · simp [hecho] at hkeys

/-- What is reached looks alike in the two graphs. -/
theorem alike (v : Verb) (hid : Reaches s root depth id) :
    Alike .equal s { s with graph := g } v depth id where
  shape := h.shape hid
  typeName_eq := h.typeName_eq hid
  capability_eq _ := h.capability_eq hid
  run_eq {q} hq := by
    have hitems : ∀ child ∈ q.items, Reaches s root (depth + 1) child := by
      intro child hchild
      cases hs : s.graph.shape id with
      | array q' =>
          obtain rfl : q' = q := by simpa [hs, Shape.elements?] using hq
          exact hid.part hs rfl hchild
      | slice q' =>
          obtain rfl : q' = some q := by simpa [hs, Shape.elements?] using hq
          exact hid.part hs rfl hchild
      | _ => simp [hs, Shape.elements?] at hq
    exact h.byteRun?_eq v hitems
  order hs := h.order_eq hecho hg hg' hid hs
  mark hleaf := by
    change badMark s v id = badMark { s with graph := g } v id
    unfold badMark
    rw [s.render_leaf_congr hleaf (h.node_eq_of_leaf hid hleaf)]
    simp only [h.typeName_eq hid]

/-- **What is not reached does not matter.** -/
theorem walk_eq (v : Verb) (l : Layout) (n : Nat) (hid : Reaches s root depth id) :
    walk s v l n depth id = walk { s with graph := g } v l n depth id := by
  induction n generalizing depth id with
  | zero => rfl
  | succ n ih =>
      rw [walk_succ hecho, walk_succ (s := { s with graph := g }) hecho]
      refine level_congruent (C := .equal) rfl (h.alike hecho hg hg' v hid) ?_
      intro d child hnext
      exact ⟨ih (hid.next hnext), fun _ _ => ih (hid.next hnext)⟩

end SameInReach

/-- A verb other than that for addresses walks the graph. -/
theorem apply_eq_walk (hv : v ≠ .pointer) (s : Scene) (l : Layout) (id : NodeId) :
    v.apply s l id = walk s v l (fuel s.graph) 0 id := by
  cases v with
  | pointer => exact absurd rfl hv
  | _ => rfl

/-- **A verb ends, goes behind one indirection at most, and depends on nothing behind another.**  On
a grounded graph, under a configuration that does not order keys by their compact texts, a verb for
numbers comes to an end, and no larger amount of fuel would have changed anything.  The walk that
notes when it goes behind an indirection has the same output, and one note at most: of a pointer or
a guard that stands at the end of the holders around the root.  And in every other grounded graph
that looks alike at all that is reached the verb does the same. -/
theorem reaches_behind_one_indirection (s : Scene) (hg : s.graph.Grounded)
    (hecho : s.config.echoKeys = false) (v : Verb) (hv : v ≠ .pointer) (l : Layout)
    (root : NodeId) :
    ((v.apply s l root).result.isSome ∧
      ∀ n, fuel s.graph ≤ n → walk s v l n 0 root = v.apply s l root) ∧
    ((noted s v l (fuel s.graph) 0 root).text = (v.apply s l root).text ∧
      (noted s v l (fuel s.graph) 0 root).logs = (v.apply s l root).logs ∧
      (noted s v l (fuel s.graph) 0 root).result = (v.apply s l root).result ∧
      ((noted s v l (fuel s.graph) 0 root).steps = [] ∨
        ∃ top t, Relation.ReflTransGen
            (fun id content => s.graph.shape id = .holder (some content)) root top ∧
          opens? s 0 top = some t ∧
          (noted s v l (fuel s.graph) 0 root).steps = [.reached t])) ∧
    ∀ g : Graph, g.Grounded → SameInReach s root g →
      v.apply { s with graph := g } l root = v.apply s l root := by
  have hstable {s : Scene} (hg : s.graph.Grounded) (hecho : s.config.echoKeys = false) {n m : Nat}
      (hn : fuel s.graph ≤ n) (hm : fuel s.graph ≤ m) :
      (Bond.same True).Holds (walk s v l n 0 root) (walk s v l m 0 root) := by
    obtain ⟨rank, hle, hlt⟩ := hg.exists_rank
    have hcost := cost_le_fuel hle 0 root
    exact walk_stable hecho hle hlt n m (by omega) (by omega)
  rw [apply_eq_walk hv]
  refine ⟨⟨?_, ?_⟩, ⟨?_, ?_, ?_, noted_steps _ root⟩, ?_⟩
  · exact (hstable hg hecho le_rfl le_rfl).isSome trivial
  · intro n hn
    exact (hstable hg hecho hn le_rfl).of_same
  · exact (Likeness.output_eq (noted_output _ 0 root)).1
  · exact (Likeness.output_eq (noted_output _ 0 root)).2
  · exact (noted_output _ 0 root).result_eq
  · intro g hg' h
    have hgraph : fuel g ≤ fuel s.graph + fuel g := Nat.le_add_left _ _
    rw [apply_eq_walk hv]
    calc walk { s with graph := g } v l (fuel g) 0 root
        = walk { s with graph := g } v l (fuel s.graph + fuel g) 0 root :=
          (hstable (s := { s with graph := g }) hg' hecho le_rfl hgraph).of_same
      _ = walk s v l (fuel s.graph + fuel g) 0 root :=
          (h.walk_eq hecho hg hg' v l _ .root).symm
      _ = walk s v l (fuel s.graph) 0 root :=
          (hstable hg hecho (Nat.le_add_right _ _) le_rfl).of_same

/-- A guard inside a holder, which gives a record that leads back to the guard and, by a pointer, to
another value. -/
def cellar (behind : NodeId) : Graph :=
  ⟨#[{ shape := .holder (some 1), typeName := "Any" },
     { shape := .guarded 0x10 (some 2) {}, typeName := "Lock" },
     { shape := .record [⟨"lock", 1, .exported⟩, ⟨"next", 3, .exported⟩, ⟨"n", 4, .internal⟩],
       typeName := "Room" },
     { shape := .pointer 0x20 (some behind), typeName := "Link" },
     { shape := .uint 255 8, typeName := "u8" }]⟩

theorem cellar_grounded (behind : NodeId) : (cellar behind).Grounded := by
  -- the holder and the record come before their parts
  refine Graph.Grounded.of_rank (fun id => if id = 0 ∨ id = 2 then 1 else 0) ?_
  intro id child h
  have hparts : ((cellar behind).shape id).parts = ((cellar 0).shape id).parts := by
    rcases id with _ | _ | _ | _ | _ | id <;> rfl
  have hid : id < 5 := h.lt_size
  have hall : ∀ id < 5, ∀ child ∈ ((cellar 0).shape id).parts,
      (if child = 0 ∨ child = 2 then 1 else 0) < (if id = 0 ∨ id = 2 then 1 else 0) := by
    decide
  exact hall id hid child (hparts ▸ h)

/-- The graphs differ in what the pointer leads to, and the pointer is reached below the top. -/
theorem cellar_sameInReach (behind behind' : NodeId) (c : Config) :
    SameInReach ⟨cellar behind, c, true⟩ 0 (cellar behind') where
  shape {depth id} hid := by
    by_cases hpointer : id = 3
    · subst hpointer
      refine .pointer (Nat.pos_of_ne_zero fun htop => ?_) 0x20 (some behind) (some behind')
      subst htop
      -- nothing but the guard is held
      rcases hid.held_of_top.cases_tail with h | ⟨id, -, h⟩
      · exact absurd h (by decide)
      · rcases id with _ | _ | _ | _ | _ | id
        · simp [cellar, Graph.shape, Graph.node] at h
        all_goals cases h
    · refine .of_eq ?_
      rcases id with _ | _ | _ | _ | _ | id
      · rfl
      · rfl
      · rfl
      · exact absurd rfl hpointer
      · rfl
      · rfl
  typeName_eq {depth id} _ := by
    rcases id with _ | _ | _ | _ | _ | id <;> rfl
  capability_eq {depth id} _ := by
    rcases id with _ | _ | _ | _ | _ | id <;> rfl

/-- The guard at the top is acquired, and that alone; what the pointer leads to may be the record
itself or a number. -/
theorem cellar_reaches :
    (cellar 2).Grounded ∧
    (lowerHex.apply ⟨cellar 2, { sortKeys := true }, true⟩ {} 0).result.isSome ∧
    (noted ⟨cellar 2, { sortKeys := true }, true⟩ lowerHex {} (fuel (cellar 2)) 0 0).steps =
      [.reached 2] ∧
    lowerHex.apply ⟨cellar 4, { sortKeys := true }, true⟩ {} 0 =
      lowerHex.apply ⟨cellar 2, { sortKeys := true }, true⟩ {} 0 := by
  obtain ⟨⟨hend, -⟩, -, hsame⟩ := reaches_behind_one_indirection
    ⟨cellar 2, { sortKeys := true }, true⟩ (cellar_grounded 2) rfl lowerHex (by decide) {} 0
  exact ⟨cellar_grounded 2, hend, by decide +kernel,
    hsame _ (cellar_grounded 4) (cellar_sameInReach 2 4 _)⟩

end Verb

end ValueLens
