/-
**Verbs do not know what is private.**

A render remembers whether it came through a private field, and asks private values for their
descriptions only if the hatch is open.  The walk of a verb remembers its depth and nothing else: it
asks every value that it comes to, and the keys of a map before it puts the entries in order, and it
never looks at the hatch.  So what private values answer shows under a verb as soon as the walk
comes to them.

Where it comes is a matter of answers itself: it does not go into a value for which an answer stands
in, nor into a sequence that it writes as bytes.  The values that it asks are therefore described
along its way, and then the statement is exact.  If all of them can be seen in public, then no
private answer shows.  If one cannot, let that one fail with a message that is new: the failure is
logged, and if it was asked for itself and not as a key, it is written too.

Main definitions:

* `ValueLens.Verb.Enters`, `ValueLens.Verb.ComesTo` — what a verb goes into, and comes to;
* `ValueLens.Verb.AsksValue`, `ValueLens.Verb.AsksKey` — whom a verb asks for a description;
* `ValueLens.Graph.failingAt` — the graph in which one value fails to describe itself.

Main results:

* `ValueLens.Verb.walk_hatch` — the hatch makes no difference to a verb;
* `ValueLens.Verb.walk_eq_of_public` — if all that are asked are public, private answers do not
  show;
* `ValueLens.Verb.mem_walk_of_comesTo` — what happens where a verb comes to happens;
* `ValueLens.Verb.ComesTo.failingAt` — a verb comes as far as before, or to the value that fails;
* `ValueLens.Verb.private_answers_show_iff_asked` — **when private answers show under a verb.**
-/
import ValueLens.Proofs.Privacy
import ValueLens.Proofs.Silence
import ValueLens.Proofs.VerbReach

set_option relaxedAutoImplicit false
set_option autoImplicit false

namespace ValueLens

namespace Verb

/-! ### Whom a verb asks -/

/-- **A verb goes into the structure of a value**: no answer stands in for it, and it is not written
as bytes. -/
def Enters (s : Scene) (v : Verb) (id : NodeId) : Prop :=
  v.standsIn (answer s id) = false ∧
    ∀ q, (s.graph.shape id).elements? = some q → byteRun? s v q = none

/-- **What a verb comes to from a root, and at which depth.** -/
inductive ComesTo (s : Scene) (v : Verb) (root : NodeId) : Nat → NodeId → Prop
  | root : ComesTo s v root 0 root
  | next {depth d : Nat} {id child : NodeId} (h : ComesTo s v root depth id)
      (henters : Enters s v id) (hnext : Descends s depth id d child) : ComesTo s v root d child

/-- **A value that a verb asks for its description.** -/
def AsksValue (s : Scene) (v : Verb) (root p : NodeId) : Prop :=
  s.config.disableMethods = false ∧ p < s.graph.size ∧ isAsked (s.graph.shape p) = true ∧
    ∃ depth, ComesTo s v root depth p

/-- **A key that a verb asks for its description**, to put the entries of a map in order: some key
does not compare directly, and all keys before it have a description. -/
def AsksKey (s : Scene) (v : Verb) (root p : NodeId) : Prop :=
  s.config.disableMethods = false ∧ p < s.graph.size ∧
    ∃ depth id before value after, ComesTo s v root depth id ∧ Enters s v id ∧
      s.graph.shape id = .map (some (before ++ ⟨p, value⟩ :: after)) ∧
      (∃ e ∈ before ++ ⟨p, value⟩ :: after,
        KeyOrder.isSimple (s.graph.shape e.key) = false) ∧
      ∀ e ∈ before, (s.graph.node e.key).capability.text?.isSome = true

end Verb

/-! ### The hatch -/

/-- A leaf that is met in public is shown whatever the hatch. -/
theorem Walk.level_leaf_hatch {s : Scene} {texts texts' : Texts}
    {visit visit' : Visit} {mode : Mode} {id : NodeId} (hleaf : (s.graph.shape id).isLeaf = true)
    (hatchOpen : Bool) {st : RenderState} (hst : st.inPrivate = false) :
    level { s with hatchOpen := hatchOpen } texts' visit' mode id st =
      level s texts visit mode id st := by
  have hheader (n : Node) : mode.header { s with hatchOpen := hatchOpen } n = mode.header s n := by
    cases mode with
    | _ => rfl
  obtain ⟨-, ⟨⟩, σ, hσ, hframe⟩ := Mode.quiet_header s (s.graph.node id) mode st
  have hpublic : σ.inPrivate = false := (congrArg Frame.inPrivate hframe).trans hst
  have hask : ask { s with hatchOpen := hatchOpen } (s.graph.node id) σ =
      ask s (s.graph.node id) σ := by
    simp [ask, Render.run_get_bind, RenderState.hookAllowed, hpublic]
  have hfront : front { s with hatchOpen := hatchOpen } mode id st = front s mode id st := by
    unfold front
    rw [hheader, Render.run_bind_of_some hσ, Render.run_bind_of_some hσ]
    rw [Render.run_bind_congr hask]
  obtain ⟨text, htext⟩ := exists_level_of_leaf hleaf
  rw [htext s texts visit mode rfl, htext { s with hatchOpen := hatchOpen } texts' visit' mode rfl]
  exact Render.run_bind_congr hfront _

theorem Scene.render_leaf_hatch {s : Scene} {id : NodeId}
    (hleaf : (s.graph.shape id).isLeaf = true) (hatchOpen types details : Bool) :
    { s with hatchOpen := hatchOpen }.render types details id = s.render types details id := by
  obtain ⟨n, hn⟩ := s.exists_fuel_eq
  have hn' : { s with hatchOpen := hatchOpen }.fuel = n + 1 := hn
  unfold render present
  rw [hn, hn']
  simp only [Walk.walk]
  exact congrArg Trace.captured (Render.fromStart_congr (Walk.level_leaf_hatch hleaf hatchOpen rfl))

namespace Verb

variable {s : Scene} {v : Verb} {l : Layout} {depth : Nat} {id : NodeId}

/-- **The hatch makes no difference to a verb.** -/
theorem walk_hatch (hecho : s.config.echoKeys = false) (hatchOpen : Bool) (v : Verb) (l : Layout)
    (n depth : Nat) (id : NodeId) :
    walk { s with hatchOpen := hatchOpen } v l n depth id = walk s v l n depth id := by
  induction n generalizing s depth id with
  | zero => rfl
  | succ n ih =>
      have halike : Alike .equal { s with hatchOpen := hatchOpen } s v depth id := {
        shape := .same _
        typeName_eq := rfl
        run_eq := fun _ => rfl
        order := fun _ => KeyOrder.sort_congr rfl (fun _ _ => rfl) (fun _ _ => rfl)
          (fun _ _ => rfl) fun hkeys => by simp [hecho] at hkeys
        mark := fun hleaf => by
          change badMark { s with hatchOpen := hatchOpen } v id = badMark s v id
          simp only [badMark, Scene.render_leaf_hatch hleaf]
        capability_eq := fun _ => rfl }
      exact level_congruent (C := .equal) rfl halike fun d child _ =>
        ⟨ih hecho d child, fun a _ => ih (s := s.holding [a]) hecho d child⟩

end Verb

/-! ### Where all that are asked are public -/

/-- Keys that are not asked have no say in the descriptions of keys: those after one without. -/
theorem KeyOrder.descriptions?_congr_asked {g₁ g₂ : Graph} {es : List Entry}
    (h : ∀ before e after, es = before ++ e :: after →
      (∀ b ∈ before, (g₁.node b.key).capability.text?.isSome = true) →
      (g₁.node e.key).describe = (g₂.node e.key).describe) :
    descriptions? g₁ es = descriptions? g₂ es := by
  induction es with
  | nil => rfl
  | cons e es ih =>
      simp only [descriptions?]
      rw [← h [] e es rfl (by simp)]
      refine Trace.bind_congr fun given hgiven => ?_
      obtain rfl : (g₁.node e.key).capability = given :=
        Option.some.inj ((g₁.node e.key).describe_quiet.2.symm.trans hgiven)
      cases htext : (g₁.node e.key).capability.text? with
      | none => rfl
      | some t =>
          rw [ih]
          intro before e' after hes hbefore
          refine h (e :: before) e' after (by rw [hes]; rfl) fun b hb => ?_
          rcases List.mem_cons.1 hb with rfl | hb
          · simp [htext]
          · exact hbefore b hb

theorem Graph.SameInPublic.sameButAnswers {g₁ g₂ : Graph} {roots : List NodeId}
    (h : g₁.SameInPublic roots g₂) : g₁.SameButAnswers g₂ :=
  ⟨h.size_eq, h.shape_eq, h.typeName_eq⟩

/-- Numbers without a node have nothing to answer. -/
theorem Graph.SameInPublic.capability_eq_of_sees {g₁ g₂ : Graph} {roots : List NodeId}
    (h : g₁.SameInPublic roots g₂) {id : NodeId} (hsees : id < g₁.size → g₁.Sees roots id false) :
    (g₁.node id).capability = (g₂.node id).capability := by
  by_cases hid : id < g₁.size
  · exact h.capability_eq (hsees hid)
  · have hge : g₁.size ≤ id := Nat.le_of_not_lt hid
    have hge' : g₂.size ≤ id := h.size_eq ▸ hge
    simp only [node, Array.getD_eq_getD_getElem?, Array.getElem?_eq_none hge,
      Array.getElem?_eq_none hge']

namespace Verb

variable {s : Scene} {v : Verb} {depth : Nat} {id root : NodeId}

section Public

variable {g : Graph} (h : s.graph.SameInPublic [root] g)
  (hmethods : s.config.disableMethods = false) (hecho : s.config.echoKeys = false)
  (hvalues : ∀ p, AsksValue s v root p → s.graph.Sees [root] p false)
  (hkeys : ∀ p, AsksKey s v root p → s.graph.Sees [root] p false)

include h hmethods hvalues

/-- The same is heard of every value that a verb comes to. -/
theorem capability_eq_of_comesTo (hid : ComesTo s v root depth id)
    (hasked : isAsked (s.graph.shape id) = true) :
    (s.graph.node id).capability = (g.node id).capability :=
  h.capability_eq_of_sees fun hlt => hvalues id ⟨hmethods, hlt, hasked, depth, hid⟩

theorem heard_eq_of_comesTo (hid : ComesTo s v root depth id) :
    heard s id = heard { s with graph := g } id := by
  have hshape : (g.node id).shape = (s.graph.node id).shape := (h.shape_eq id).symm
  unfold heard
  rw [hshape]
  split
  · next hasked =>
      have hasked' : isAsked (s.graph.shape id) = true := (Bool.and_eq_true_iff.1 hasked).1
      exact Node.describe_congr (h.typeName_eq id)
        (capability_eq_of_comesTo h hmethods hvalues hid hasked')
  · rfl

omit hvalues in
include hecho hkeys in
/-- So is the order of the entries of a map. -/
theorem order_eq_of_comesTo (hid : ComesTo s v root depth id) (henters : Enters s v id)
    {es : List Entry} (hs : s.graph.shape id = .map (some es)) :
    KeyOrder.sort s (s.render true false) (!s.config.disableMethods) es =
      KeyOrder.sort { s with graph := g } ({ s with graph := g }.render true false)
        (!s.config.disableMethods) es := by
  refine KeyOrder.sort_congr rfl (fun e _ => h.sameButAnswers.isSimple_eq e.key)
    (fun e _ => h.sameButAnswers.ofNode_eq e.key) (fun _ hsimple => ?_) fun hkeys => ?_
  · refine KeyOrder.descriptions?_congr_asked fun before e after hes hbefore => ?_
    subst hes
    refine Node.describe_congr (h.typeName_eq e.key) (h.capability_eq_of_sees fun hlt => ?_)
    exact hkeys e.key
      ⟨hmethods, hlt, depth, id, before, e.value, after, hid, henters, hs, hsimple, hbefore⟩
  · simp [hecho] at hkeys

include hecho hkeys in
/-- What a verb goes into looks the same. -/
theorem looks_of_comesTo (hid : ComesTo s v root depth id)
    (hstands : v.standsIn (answer s id) = false) :
    Looks .equal s { s with graph := g } v depth id where
  shape := .of_eq (h.shape_eq id)
  typeName_eq := h.typeName_eq id
  run_eq _ := h.sameButAnswers.byteRun?_eq v _
  order hs := by
    refine order_eq_of_comesTo h hmethods hecho hkeys hid ⟨hstands, fun q hq => ?_⟩ hs
    simp [hs, Shape.elements?] at hq
  mark hleaf := by
    have hasked : isAsked (s.graph.shape id) = true := by
      generalize s.graph.shape id = shape at hleaf
      cases shape with
      | pointer a target => simp [Shape.isLeaf] at hleaf
      | guarded a content lock => simp [Shape.isLeaf] at hleaf
      | holder content => simp [Shape.isLeaf] at hleaf
      | _ => rfl
    have hnode : s.graph.node id = g.node id :=
      Graph.node_congr (h.shape_eq id) (h.typeName_eq id)
        (capability_eq_of_comesTo h hmethods hvalues hid hasked)
    change badMark s v id = badMark { s with graph := g } v id
    simp only [badMark, s.render_leaf_congr hleaf hnode, h.typeName_eq]

include hecho hkeys in
/-- **If all that are asked can be seen in public, private answers do not show.** -/
theorem walk_eq_of_public (l : Layout) (n : Nat) (hid : ComesTo s v root depth id) :
    walk s v l n depth id = walk { s with graph := g } v l n depth id := by
  induction n generalizing depth id with
  | zero => rfl
  | succ n ih =>
      rw [walk_succ hecho, walk_succ (s := { s with graph := g }) hecho]
      refine level_congruent_of_heard (C := .equal) (heard_eq_of_comesTo h hmethods hvalues hid) ?_
      intro hstands
      refine structural_congruent rfl
        (looks_of_comesTo h hmethods hecho hvalues hkeys hid hstands) ?_
      intro hrun d child hnext
      have hchild := hid.next ⟨hstands, hrun⟩ hnext
      exact ⟨ih hchild, fun _ _ => ih hchild⟩

end Public

/-! ### What happens where a verb comes to -/

theorem mem_spaced {α : Type} {part : α → Trace Unit} {xs : List α} {x : α} {e : Effect}
    (hends : ∀ x ∈ xs, (part x).result.isSome = true) (hx : x ∈ xs)
    (he : e ∈ (part x).effects) : e ∈ (spaced part xs).effects := by
  induction xs with
  | nil => cases hx
  | cons first xs ih =>
      obtain ⟨⟨⟩, hfirst⟩ := Option.isSome_iff_exists.1 (hends first (by simp))
      cases xs with
      | nil =>
          obtain rfl := List.mem_singleton.1 hx
          exact he
      | cons second rest =>
          rcases List.mem_cons.1 hx with rfl | hx
          · exact Trace.mem_bind_of_left he _
          · refine Trace.mem_bind_of_right hfirst (Trace.mem_bind_of_right rfl ?_)
            exact ih (fun y hy => hends y (by simp [hy])) hx

section Happens

variable {l : Layout} {below : Below} {e : Effect} (hecho : s.config.echoKeys = false)

include hecho

omit hecho in
theorem mem_sequence {q : Sequence} {child : NodeId} (hrun : byteRun? s v q = none)
    (hends : ∀ child ∈ q.items, (below (depth + 1) child).result.isSome = true)
    (hchild : child ∈ q.items) (he : e ∈ (below (depth + 1) child).effects) :
    e ∈ (sequence s v l below depth q).effects := by
  unfold sequence
  rw [hrun]
  exact Trace.mem_bind_of_right rfl (Trace.mem_bind_of_left (mem_spaced hends hchild he) _)

theorem mem_map {es : List Entry} {child : NodeId}
    (hends : ∀ e ∈ es, (below (depth + 1) e.key).result.isSome = true ∧
      (below (depth + 1) e.value).result.isSome = true)
    (hchild : child ∈ es.flatMap fun e => [e.key, e.value])
    (he : e ∈ (below (depth + 1) child).effects) : e ∈ (map s below depth es).effects := by
  have hsort : (Bond.same True).Holds
      (KeyOrder.sort s (s.render true false) (!s.config.disableMethods) es)
      (KeyOrder.sort s (s.render true false) (!s.config.disableMethods) es) :=
    KeyOrder.sort_holds (fun hkeys => by simp [hecho] at hkeys) _ es
  obtain ⟨ordered, hordered⟩ := Option.isSome_iff_exists.1 (hsort.isSome trivial)
  obtain ⟨entry, hentry, hchild⟩ := List.mem_flatMap.1 hchild
  have hmem : entry ∈ ordered := (KeyOrder.mem_sort_iff hordered).2 hentry
  refine Trace.mem_bind_of_right hordered
    (Trace.mem_bind_of_right rfl (Trace.mem_bind_of_left (mem_spaced ?_ hmem ?_) _))
  · intro x hx
    obtain ⟨hkey, hvalue⟩ := hends x ((KeyOrder.mem_sort_iff hordered).1 hx)
    obtain ⟨⟨⟩, hkey⟩ := Option.isSome_iff_exists.1 hkey
    rw [Trace.bind_of_some hkey]
    exact hvalue
  · obtain ⟨⟨⟩, hkey⟩ := Option.isSome_iff_exists.1 (hends entry hentry).1
    simp only [List.mem_cons, List.not_mem_nil, or_false] at hchild
    rcases hchild with rfl | rfl
    · exact Trace.mem_bind_of_left he _
    · exact Trace.mem_bind_of_right hkey (Trace.mem_bind_of_right rfl he)

omit hecho in
theorem mem_record {fs : List Field} {child : NodeId}
    (hends : ∀ f ∈ fs, (below (depth + 1) f.value).result.isSome = true)
    (hchild : child ∈ fs.map Field.value) (he : e ∈ (below (depth + 1) child).effects) :
    e ∈ (record l below depth fs).effects := by
  obtain ⟨f, hf, rfl⟩ := List.mem_map.1 hchild
  refine Trace.mem_bind_of_right rfl (Trace.mem_bind_of_left (mem_spaced ?_ hf ?_) _)
  · intro x hx
    cases l.plus with
    | true => exact hends x hx
    | false => exact hends x hx
  · cases l.plus with
    | true => exact Trace.mem_bind_of_right rfl he
    | false => exact he

/-- **What happens below a structure that a verb goes into happens.** -/
theorem mem_structural_of_descends {d : Nat} {child : NodeId}
    (hrun : ∀ q, (s.graph.shape id).elements? = some q → byteRun? s v q = none)
    (hends : ∀ d child, Descends s depth id d child → (below d child).result.isSome = true)
    (hnext : Descends s depth id d child) (he : e ∈ (below d child).effects) :
    e ∈ (structural s v l below (fun _ => below) depth id).effects := by
  cases hnext with
  | held hs =>
      simp only [structural, hs]
      exact he
  | target hs hdepth =>
      subst hdepth
      simp only [structural, hs]
      exact Trace.mem_bind_of_right rfl he
  | content hs hdepth hresolved =>
      cases hshape : s.graph.shape id with
      | guarded a content lock =>
          rw [hshape] at hs
          simp only [structural, hshape, hdepth, hresolved, hs]
          cases lock.exclusive with
          | _ => exact he
      | _ => simp [hshape, Shape.acquire?] at hs
  | part hpart hholder =>
      have hparts {child : NodeId} (hchild : child ∈ (s.graph.shape id).parts) :
          (below (depth + 1) child).result.isSome = true := hends _ _ (.part hchild hholder)
      have hchild : child ∈ (s.graph.shape id).parts := hpart
      cases hshape : s.graph.shape id with
      | array q =>
          rw [hshape] at hrun hparts hchild
          simp only [structural, hshape]
          exact mem_sequence (hrun q rfl) (fun _ => hparts) hchild he
      | slice q =>
          cases q with
          | none => simp [hshape, Shape.parts] at hchild
          | some q =>
              rw [hshape] at hrun hparts hchild
              simp only [structural, hshape]
              exact mem_sequence (hrun q rfl) (fun _ => hparts) hchild he
      | map es =>
          cases es with
          | none => simp [hshape, Shape.parts] at hchild
          | some es =>
              rw [hshape] at hparts hchild
              simp only [structural, hshape]
              refine mem_map hecho (fun entry hentry => ⟨hparts ?_, hparts ?_⟩) hchild he
              · exact List.mem_flatMap.2 ⟨entry, hentry, by simp⟩
              · exact List.mem_flatMap.2 ⟨entry, hentry, by simp⟩
      | record fs =>
          rw [hshape] at hparts hchild
          simp only [structural, hshape]
          exact mem_record (fun f hf => hparts (List.mem_map_of_mem hf)) hchild he
      | holder content => simp [hshape, Shape.isHolder] at hholder
      | _ => simp [hshape, Shape.parts] at hchild

omit hecho in
/-- What happens in a structure that a verb goes into happens. -/
theorem mem_level_of_structural (henters : Enters s v id)
    (he : e ∈ (structural s v l below (fun _ => below) depth id).effects) :
    e ∈ (level s v l below (fun _ => below) depth id).effects := by
  rw [level_of_not_standsIn henters.1]
  exact Trace.mem_bind_of_right (heard_result s id) he

variable (hg : s.graph.Grounded)

include hg

/-- With the fuel of the graph a level of the walk is like all others, and ends. -/
theorem walk_fuel (v : Verb) (l : Layout) (depth : Nat) (id : NodeId) :
    (walk s v l (fuel s.graph) depth id).result.isSome = true ∧
      walk s v l (fuel s.graph) depth id =
        level s v l (walk s v l (fuel s.graph)) (fun _ => walk s v l (fuel s.graph)) depth id := by
  obtain ⟨rank, hle, hlt⟩ := hg.exists_rank
  have hcost := cost_le_fuel hle depth id
  have hstable : (Bond.same True).Holds (walk s v l (fuel s.graph) depth id)
      (walk s v l (fuel s.graph + 1) depth id) :=
    walk_stable hecho hle hlt _ _ hcost (by omega)
  exact ⟨hstable.isSome trivial, hstable.of_same.trans (walk_succ hecho _)⟩

/-- **What happens where a verb comes to happens.** -/
theorem mem_walk_of_comesTo (hid : ComesTo s v root depth id)
    (he : e ∈ (walk s v l (fuel s.graph) depth id).effects) :
    e ∈ (walk s v l (fuel s.graph) 0 root).effects := by
  induction hid with
  | root => exact he
  | next _ henters hnext ih =>
      apply ih
      rw [(walk_fuel hecho hg v l _ _).2]
      refine mem_level_of_structural henters ?_
      exact mem_structural_of_descends hecho henters.2
        (fun d child _ => (walk_fuel hecho hg v l d child).1) hnext he

end Happens

end Verb

/-! ### A private value that fails to answer -/

/-- What is written is in the text. -/
theorem Trace.length_le_text {α : Type} {m : Trace α} {t : String}
    (h : .write t ∈ m.effects) : t.length ≤ m.text.length := by
  obtain ⟨before, after, heffects⟩ := List.append_of_mem h
  have htext : m.text = String.join (before.filterMap Effect.text?) ++
      (t ++ String.join (after.filterMap Effect.text?)) := by
    simp [Trace.text, heffects, Effect.text?, String.join_append]
  rw [htext]
  simp only [String.length_append]
  omega

theorem Node.failure_mem_describe {n : Node} {message : String}
    (h : n.capability = .panicked message) :
    .log (failure n.typeName message) ∈ n.describe.effects := by
  unfold describe
  rw [h]
  exact List.mem_cons_self

/-- A key that is asked and fails is logged: before it there are only keys with a description, and
perhaps the same key. -/
theorem KeyOrder.failure_mem_descriptions? {g : Graph} {before after : List Entry} {e : Entry}
    {message : String} (h : (g.node e.key).capability = .panicked message)
    (hbefore : ∀ b ∈ before, b.key = e.key ∨ (g.node b.key).capability.text?.isSome = true) :
    .log (Node.failure (g.typeName e.key) message) ∈
      (descriptions? g (before ++ e :: after)).effects := by
  induction before with
  | nil => exact Trace.mem_bind_of_left (Node.failure_mem_describe h) _
  | cons b before ih =>
      rcases hbefore b (by simp) with hkey | htext
      · refine Trace.mem_bind_of_left ?_ _
        rw [hkey]
        exact Node.failure_mem_describe h
      · obtain ⟨t, ht⟩ := Option.isSome_iff_exists.1 htext
        refine Trace.mem_bind_of_right (g.node b.key).describe_quiet.2 ?_
        simp only [ht]
        exact Trace.mem_bind_of_left (ih fun b' hb' => hbefore b' (by simp [hb'])) _

theorem KeyOrder.mem_sort_of_described {s : Scene} {echo : NodeId → Trace String}
    {es : List Entry} {x : Effect}
    (hsimple : ∃ e ∈ es, isSimple (s.graph.shape e.key) = false)
    (hx : x ∈ (descriptions? s.graph es).effects) : x ∈ (sort s echo true es).effects := by
  rw [sort_of_not_simple hsimple]
  exact Trace.mem_bind_of_left hx _

namespace Graph

variable {g : Graph} {p id : NodeId} {message : String}

/-- **The graph in which one value fails to describe itself.** -/
def failingAt (g : Graph) (p : NodeId) (message : String) : Graph :=
  g.answering fun id => if id = p then .panicked message else (g.node id).capability

theorem sameButAnswers_failingAt (g : Graph) (p : NodeId) (message : String) :
    g.SameButAnswers (g.failingAt p message) :=
  g.sameButAnswers_answering _

theorem capability_failingAt (hp : p < g.size) :
    ((g.failingAt p message).node p).capability = .panicked message := by
  rw [failingAt, capability_answering hp, if_pos rfl]

theorem capability_failingAt_of_ne (hid : id ≠ p) :
    ((g.failingAt p message).node id).capability = (g.node id).capability := by
  by_cases hlt : id < g.size
  · rw [failingAt, capability_answering hlt, if_neg hid]
  · have hge : g.size ≤ id := Nat.le_of_not_lt hlt
    simp [failingAt, answering, node, Array.getElem?_eq_none hge]

/-- If the value cannot be seen in public, nothing in public differs. -/
theorem sameInPublic_failingAt {roots : List NodeId} (hp : ¬g.Sees roots p false)
    (message : String) : g.SameInPublic roots (g.failingAt p message) where
  size_eq := (g.sameButAnswers_failingAt p message).size_eq
  shape_eq := (g.sameButAnswers_failingAt p message).shape_eq
  typeName_eq := (g.sameButAnswers_failingAt p message).typeName_eq
  capability_eq {id} hid := by
    refine (capability_failingAt_of_ne ?_).symm
    rintro rfl
    exact hp hid

end Graph

/-- **The scene in which one value fails to describe itself.** -/
def Scene.failingAt (s : Scene) (p : NodeId) (message : String) : Scene :=
  { s with graph := s.graph.failingAt p message }

namespace Verb

variable {s : Scene} {v : Verb} {depth : Nat} {id root p : NodeId} {message : String}

/-- What others answer does not change. -/
theorem answer_failingAt (h : ¬(id = p ∧ isAsked (s.graph.shape p) = true)) :
    answer (s.failingAt p message) id = answer s id := by
  have hshape : ((s.graph.failingAt p message).node id).shape = (s.graph.node id).shape :=
    ((s.graph.sameButAnswers_failingAt p message).shape_eq id).symm
  simp only [answer, Scene.failingAt, hshape]
  by_cases hid : id = p
  · subst hid
    have hasked : isAsked (s.graph.node id).shape = false := by simpa [Graph.shape] using h
    simp [hasked]
  · rw [Graph.capability_failingAt_of_ne hid]

theorem Enters.failingAt (henters : Enters s v id)
    (h : ¬(id = p ∧ isAsked (s.graph.shape p) = true)) : Enters (s.failingAt p message) v id := by
  have hsame := s.graph.sameButAnswers_failingAt p message
  refine ⟨by rw [answer_failingAt h]; exact henters.1, fun q hq => ?_⟩
  refine (hsame.byteRun?_eq v q).symm.trans (henters.2 q ?_)
  rw [hsame.shape_eq id]
  exact hq

theorem Descends.failingAt {d : Nat} {child : NodeId} (h : Descends s depth id d child) :
    Descends (s.failingAt p message) depth id d child := by
  have hshape : (s.failingAt p message).graph.shape id = s.graph.shape id :=
    ((s.graph.sameButAnswers_failingAt p message).shape_eq id).symm
  cases h with
  | held hs => exact .held (hshape.trans hs)
  | part hpart hholder =>
      refine .part ?_ (by rw [hshape]; exact hholder)
      rw [Graph.HasPart, hshape]
      exact hpart
  | target hs hdepth => exact .target (hshape.trans hs) hdepth
  | content hs hdepth hresolved => exact .content (by rw [hshape]; exact hs) hdepth hresolved

/-- **The verb comes as far as before, or to the value that fails.** -/
theorem ComesTo.failingAt (h : ComesTo s v root depth id) (message : String) :
    ComesTo (s.failingAt p message) v root depth id ∨
      (isAsked (s.graph.shape p) = true ∧ ∃ d, ComesTo (s.failingAt p message) v root d p) := by
  induction h with
  | root => exact Or.inl .root
  | @next depth d id child _ henters hnext ih =>
      rcases ih with ih | ih
      · by_cases hid : id = p ∧ isAsked (s.graph.shape p) = true
        · exact Or.inr ⟨hid.2, depth, hid.1 ▸ ih⟩
        · exact Or.inl (.next ih (henters.failingAt hid) hnext.failingAt)
      · exact Or.inr ih

section Fails

variable {l : Layout} (hecho : s.config.echoKeys = false) (hg : s.graph.Grounded)
  (hmethods : s.config.disableMethods = false)

include hecho hg hmethods

/-- **A value that is asked and fails says so**, in the log and in its place. -/
theorem failure_mem_of_comesTo (hp : (s.graph.node p).capability = .panicked message)
    (hasked : isAsked (s.graph.shape p) = true) (hcomes : ComesTo s v root depth p) :
    .log (Node.failure (s.graph.typeName p) message) ∈
        (walk s v l (fuel s.graph) 0 root).effects ∧
      .write ("%!" ++ v.letter ++ Node.panicMark message) ∈
        (walk s v l (fuel s.graph) 0 root).effects := by
  have hasked' : isAsked (s.graph.node p).shape = true := hasked
  have hheard : heard s p = (s.graph.node p).describe := by simp [heard, hasked', hmethods]
  have hanswer : answer s p = .panicked message := by simp [answer, hasked', hmethods, hp]
  have hwalk := (walk_fuel hecho hg v l depth p).2
  rw [level_eq, hheard] at hwalk
  refine ⟨mem_walk_of_comesTo hecho hg hcomes ?_, mem_walk_of_comesTo hecho hg hcomes ?_⟩
  · rw [hwalk]
    exact Trace.mem_bind_of_left (Node.failure_mem_describe hp) _
  · rw [hwalk]
    refine Trace.mem_bind_of_right ((s.graph.node p).describe_quiet.2.trans (congrArg some hp)) ?_
    exact List.mem_cons_self

/-- **A key that is asked and fails is logged.** -/
theorem failure_mem_of_key {before after : List Entry} {e : Entry}
    (hp : (s.graph.node e.key).capability = .panicked message)
    (hcomes : ComesTo s v root depth id) (henters : Enters s v id)
    (hs : s.graph.shape id = .map (some (before ++ e :: after)))
    (hsimple : ∃ e' ∈ before ++ e :: after, KeyOrder.isSimple (s.graph.shape e'.key) = false)
    (hbefore : ∀ b ∈ before,
      b.key = e.key ∨ (s.graph.node b.key).capability.text?.isSome = true) :
    .log (Node.failure (s.graph.typeName e.key) message) ∈
      (walk s v l (fuel s.graph) 0 root).effects := by
  refine mem_walk_of_comesTo hecho hg hcomes ?_
  rw [(walk_fuel hecho hg v l depth id).2]
  refine mem_level_of_structural henters ?_
  simp only [structural, hs]
  refine Trace.mem_bind_of_left ?_ _
  simp only [hmethods]
  exact KeyOrder.mem_sort_of_described hsimple (KeyOrder.failure_mem_descriptions? hp hbefore)

end Fails

section Asked

variable (hv : v ≠ .pointer) (hecho : s.config.echoKeys = false) (hg : s.graph.Grounded)
  (message : String) (l : Layout)

include hv hecho hg

/-- If a value that is asked failed, that would be logged and written. -/
theorem failure_mem_of_asksValue (h : AsksValue s v root p) :
    .log (Node.failure (s.graph.typeName p) message) ∈
        (v.apply (s.failingAt p message) l root).effects ∧
      .write ("%!" ++ v.letter ++ Node.panicMark message) ∈
        (v.apply (s.failingAt p message) l root).effects := by
  obtain ⟨hmethods, hlt, hasked, depth, hcomes⟩ := h
  have hsame := s.graph.sameButAnswers_failingAt p message
  obtain ⟨d, hd⟩ : ∃ d, ComesTo (s.failingAt p message) v root d p := by
    rcases hcomes.failingAt message with h | ⟨-, h⟩
    · exact ⟨depth, h⟩
    · exact h
  rw [apply_eq_walk hv, hsame.typeName_eq]
  exact failure_mem_of_comesTo (s := s.failingAt p message) hecho (hsame.grounded hg) hmethods
    (Graph.capability_failingAt hlt) (hsame.shape_eq p ▸ hasked) hd

/-- If a key that is asked failed, that would be logged. -/
theorem failure_mem_of_asksKey (h : AsksKey s v root p) :
    .log (Node.failure (s.graph.typeName p) message) ∈
      (v.apply (s.failingAt p message) l root).effects := by
  obtain ⟨hmethods, hlt, depth, id, before, value, after, hcomes, henters, hs, hsimple, hbefore⟩ :=
    h
  have hsame := s.graph.sameButAnswers_failingAt p message
  have hp : ((s.failingAt p message).graph.node p).capability = .panicked message :=
    Graph.capability_failingAt hlt
  rw [apply_eq_walk hv, hsame.typeName_eq]
  -- on its way to the map the verb may come to the same value, which then fails there
  by_cases hmeets : isAsked (s.graph.shape p) = true ∧
      ∃ d, ComesTo (s.failingAt p message) v root d p
  · obtain ⟨hasked, d, hd⟩ := hmeets
    exact (failure_mem_of_comesTo (s := s.failingAt p message) hecho (hsame.grounded hg) hmethods
      hp (hsame.shape_eq p ▸ hasked) hd).1
  · have hcomes' := (hcomes.failingAt message).resolve_right hmeets
    have hother : ¬(id = p ∧ isAsked (s.graph.shape p) = true) :=
      fun hid => hmeets ⟨hid.2, depth, hid.1 ▸ hcomes'⟩
    refine failure_mem_of_key (s := s.failingAt p message) (e := ⟨p, value⟩) hecho
      (hsame.grounded hg) hmethods hp hcomes' (henters.failingAt hother)
      ((hsame.shape_eq id).symm.trans hs) ?_ fun b hb => ?_
    · obtain ⟨e, he, hsimple⟩ := hsimple
      exact ⟨e, he, (hsame.isSimple_eq e.key).symm.trans hsimple⟩
    · by_cases hkey : b.key = p
      · exact Or.inl hkey
      · have hanswer : ((s.failingAt p message).graph.node b.key).capability =
            (s.graph.node b.key).capability := Graph.capability_failingAt_of_ne hkey
        exact Or.inr (hanswer ▸ hbefore b hb)

/-- A private value or key that is asked has an answer with which something else is logged. -/
theorem exists_other_logs (h : AsksValue s v root p ∨ AsksKey s v root p)
    (hp : ¬s.graph.Sees [root] p false) :
    ∃ g, s.graph.SameInPublic [root] g ∧
      (v.apply { s with graph := g } l root).logs ≠ (v.apply s l root).logs := by
  -- a message that is longer than all that was logged is new
  obtain ⟨message, hlonger⟩ := exists_longer ((v.apply s l root).logs.map LogEvent.message)
  refine ⟨_, Graph.sameInPublic_failingAt hp message, fun hlogs => ?_⟩
  have hfails : .log (Node.failure (s.graph.typeName p) message) ∈
      (v.apply (s.failingAt p message) l root).effects := by
    rcases h with h | h
    · exact (failure_mem_of_asksValue hv hecho hg message l h).1
    · exact failure_mem_of_asksKey hv hecho hg message l h
  have hlogged : Node.failure (s.graph.typeName p) message ∈ (v.apply s l root).logs := by
    rw [← hlogs]
    exact List.mem_filterMap.2 ⟨_, hfails, rfl⟩
  have hless := hlonger _ (List.mem_map_of_mem hlogged)
  simp only [Node.failure, String.length_append] at hless
  omega

/-- A private value that is asked has an answer with which something else is written. -/
theorem exists_other_text (h : AsksValue s v root p) (hp : ¬s.graph.Sees [root] p false) :
    ∃ g, s.graph.SameInPublic [root] g ∧
      (v.apply { s with graph := g } l root).text ≠ (v.apply s l root).text := by
  obtain ⟨message, hlonger⟩ := exists_longer [(v.apply s l root).text]
  refine ⟨_, Graph.sameInPublic_failingAt hp message, fun htext => ?_⟩
  have hwritten := Trace.length_le_text (failure_mem_of_asksValue hv hecho hg message l h).2
  have hless := hlonger _ List.mem_cons_self
  rw [← htext] at hless
  simp only [Node.panicMark, String.length_append, Scene.failingAt] at hwritten
  omega

omit hg in
/-- If all that are asked can be seen in public, a verb does the same whatever private values
answer. -/
theorem apply_eq_of_public {g : Graph} (h : s.graph.SameInPublic [root] g)
    (hpublic : ∀ p, AsksValue s v root p ∨ AsksKey s v root p → s.graph.Sees [root] p false) :
    v.apply { s with graph := g } l root = v.apply s l root := by
  cases hmethods : s.config.disableMethods with
  | true => exact (h.sameButAnswers.apply_eq hmethods v l root).symm
  | false =>
      rw [apply_eq_walk hv, apply_eq_walk hv]
      simp only [fuel, ← h.size_eq]
      exact (walk_eq_of_public h hmethods hecho (fun p hp => hpublic p (Or.inl hp))
        (fun p hp => hpublic p (Or.inr hp)) l _ .root).symm

end Asked

/-- **When private answers show under a verb.**  On a grounded graph, under a configuration that
does not order keys by their compact texts, the hatch makes no difference to a verb for numbers.
Whatever private values answer, the verb writes and logs the same if, and only if, all values and
keys that it asks can be seen in public.  A value that it asks and that cannot has an answer with
which the text is another. -/
theorem private_answers_show_iff_asked (s : Scene) (hg : s.graph.Grounded)
    (hecho : s.config.echoKeys = false) (v : Verb) (hv : v ≠ .pointer) (l : Layout)
    (root : NodeId) :
    (∀ hatchOpen, v.apply { s with hatchOpen := hatchOpen } l root = v.apply s l root) ∧
    ((∀ g, s.graph.SameInPublic [root] g →
        (v.apply { s with graph := g } l root).text = (v.apply s l root).text ∧
        (v.apply { s with graph := g } l root).logs = (v.apply s l root).logs) ↔
      ∀ p, AsksValue s v root p ∨ AsksKey s v root p → s.graph.Sees [root] p false) ∧
    ∀ p, AsksValue s v root p → ¬s.graph.Sees [root] p false →
      ∃ g, s.graph.SameInPublic [root] g ∧
        (v.apply { s with graph := g } l root).text ≠ (v.apply s l root).text := by
  refine ⟨fun hatchOpen => ?_, ⟨fun hsame p hasks => ?_, fun hpublic g h => ?_⟩,
    fun p => exists_other_text hv hecho hg l⟩
  · rw [apply_eq_walk hv, apply_eq_walk hv]
    exact walk_hatch hecho hatchOpen v l _ 0 root
  · by_contra hp
    obtain ⟨g, hpublic, hlogs⟩ := exists_other_logs hv hecho hg l hasks hp
    exact hlogs (hsame g hpublic).2
  · rw [apply_eq_of_public hv hecho l h hpublic]
    exact ⟨rfl, rfl⟩

/-- A record with a public number and a private one that may describe itself. -/
def wallet (secret : Capability) (hatchOpen : Bool) : Scene where
  graph :=
    ⟨#[{ shape := .record [⟨"coins", 1, .exported⟩, ⟨"pin", 2, .internal⟩], typeName := "Wallet" },
       { shape := .int 7 64, typeName := "i64" },
       { shape := .int 5 64, typeName := "i64", capability := secret }]⟩
  config := {}
  hatchOpen := hatchOpen

theorem wallet_shape (secret : Capability) (hatchOpen : Bool) (id : NodeId) :
    (wallet secret hatchOpen).graph.shape id = (wallet .absent false).graph.shape id := by
  rcases id with _ | _ | _ | id <;> rfl

theorem wallet_grounded (secret : Capability) (hatchOpen : Bool) :
    (wallet secret hatchOpen).graph.Grounded := by
  refine Graph.Grounded.of_rank (fun id => 1 - id) ?_
  intro id child h
  have hid : id < 3 := h.lt_size
  have hall : ∀ id < 3, ∀ child ∈ ((wallet .absent false).graph.shape id).parts,
      1 - child < 1 - id := by
    decide
  exact hall id hid child (wallet_shape secret hatchOpen id ▸ h)

/-- The private number cannot be seen in public. -/
theorem wallet_sees {secret : Capability} {hatchOpen passed : Bool} {id : NodeId}
    (h : (wallet secret hatchOpen).graph.Sees [0] id passed) : passed = true ∨ id < 2 := by
  induction h with
  | root h => exact Or.inr (by simp [List.mem_singleton.1 h])
  | next _ hchild ih =>
      rcases ih with rfl | hid
      · exact Or.inl rfl
      · have hall : ∀ id < 2, ∀ outlet ∈ ((wallet .absent false).graph.shape id).outlets,
            outlet.2 = true ∨ outlet.1 < 2 := by
          decide
        rw [wallet_shape] at hchild
        rcases hall _ hid _ hchild with hhidden | hless
        · exact Or.inl (Bool.or_eq_true_iff.2 (Or.inr hhidden))
        · exact Or.inr hless

/-- With the hatch closed, the answer of the private number is written under a verb: there is
another text, and a description takes the place of the number. -/
theorem wallet_shows_private_answers :
    (wallet .absent false).graph.Grounded ∧
    (wallet (.text "hi") false).graph.Grounded ∧
    (wallet .absent false).graph.SameInPublic [0] (wallet (.text "hi") false).graph ∧
    lowerHex.apply (wallet (.text "hi") true) {} 0 =
      lowerHex.apply (wallet (.text "hi") false) {} 0 ∧
    (∃ g, (wallet .absent false).graph.SameInPublic [0] g ∧
      (octal.apply { wallet .absent false with graph := g } {} 0).text ≠
        (octal.apply (wallet .absent false) {} 0).text) ∧
    (lowerHex.apply (wallet .absent false) {} 0).text = "\x7b7 5\x7d" ∧
    (lowerHex.apply (wallet (.text "hi") false) {} 0).text = "\x7b7 6869\x7d" := by
  obtain ⟨hhatch, -⟩ := private_answers_show_iff_asked (wallet (.text "hi") false)
    (wallet_grounded _ _) rfl lowerHex (by decide) {} 0
  obtain ⟨-, -, htext⟩ := private_answers_show_iff_asked (wallet .absent false)
    (wallet_grounded _ _) rfl octal (by decide) {} 0
  refine ⟨wallet_grounded _ _, wallet_grounded _ _, ?_, hhatch true, htext 2 ?_ ?_, ?_, ?_⟩
  · refine ⟨rfl, fun id => (wallet_shape _ _ id).symm, ?_, ?_⟩
    · rintro (_ | _ | _ | id) <;> rfl
    · intro id hid
      rcases id with _ | _ | id
      · rfl
      · rfl
      · have hless : id + 2 < 2 := (wallet_sees hid).resolve_left (by simp)
        omega
  · have hparts : ((wallet .absent false).graph.shape 0).parts = [1, 2] := rfl
    have hpart : Descends (wallet .absent false) 0 0 1 2 :=
      .part (by simp [Graph.HasPart, hparts]) rfl
    exact ⟨rfl, by decide, rfl, 1, .next .root ⟨rfl, fun q hq => by cases hq⟩ hpart⟩
  · exact fun hsees => absurd (wallet_sees hsees) (by decide)
  · decide +kernel
  · decide +kernel

end Verb

end ValueLens
