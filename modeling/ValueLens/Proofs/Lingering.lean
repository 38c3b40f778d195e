/-
**The type flag of compact texts.**

A compact text suppresses the type of a value where the container around it or the chain before it
tells it.  A flag is set for the next value to consume, and most values do.  Two kinds do not: an
invalid value, and a chain of indirections that ends without a value, a nil pointer apart.  They
leave the flag as they find it.  So a value leaves the flag set if the last thing shown of it, on
its right edge, is of these kinds and the flag was set for it: as the last element of a sequence, as
the value of the last entry of a map, or behind a chain.

Main definitions:

* `ValueLens.Walk.Leaves` — the values that leave the flag set, by the graph and a frame alone;
* `ValueLens.Render.Tells` — what a computation makes of the flag.

Main results:

* `ValueLens.Mode.list_tells_last`, `ValueLens.Mode.list_tells_thread` — the parts of a container,
  where each sets the flag anew or hands it on;
* `ValueLens.Walk.walk_leaves_iff` — **which values leave the flag set**.
-/
import ValueLens.Proofs.Fuel
import ValueLens.Proofs.Siblings

set_option relaxedAutoImplicit false
set_option autoImplicit false

namespace ValueLens

open Render

/-! ### Which values leave the flag set -/

/-- All of a state but the type flag. -/
def RenderState.setting (st : RenderState) : Frame × Bool := (st.frame, st.skipIndent)

/-- A value of which nothing but a text is shown. -/
def Shape.isPlain (c : Config) : Shape → Bool
  | .invalid | .holder (some _) | .array _ | .slice (some _) | .map (some _) | .record _ => false
  | shape => !shape.isIndirection c

namespace Walk

/-- Whether the description of a value stands in for it. -/
def standsIn (s : Scene) (f : Frame) (id : NodeId) : Bool :=
  ((ask s (s.graph.node id) (f.state false)).result.map fun r => r.1.2).getD false

/-- The contents of a container are shown. -/
def Opens (s : Scene) (f : Frame) (id : NodeId) : Prop :=
  s.config.atLimit f.depth = false ∧ standsIn s f id = false

/-- The entries of a map as they are shown, with fuel for the compact texts of keys. -/
def order (s : Scene) (n : Nat) (f : Frame) (es : List Entry) : Trace (List Entry) :=
  if s.config.sortKeys then
    KeyOrder.sort s (keyTexts s n f.held) ((f.state false).hookAllowed s) es
  else pure es

/-- **The entries of a map in the order in which they are shown.** -/
def Ordered (s : Scene) (f : Frame) (es ordered : List Entry) : Prop :=
  ∃ n, (order s n f es).result = some ordered

/-- **The values that leave the type flag set**, given the frame in which they are shown and the
flag before them. -/
inductive Leaves (s : Scene) : Frame → Bool → NodeId → Prop
  /-- An invalid value leaves the flag as it is. -/
  | invalid {f : Frame} {id : NodeId} (h : s.graph.shape id = .invalid) : Leaves s f true id
  /-- So does a chain that closes a cycle or leads to no value, a nil pointer apart. -/
  | stopped {f : Frame} {id : NodeId} (h : (Chain.link? s id).isSome = true)
      (hstop : (Chain.closing? f.path (Chain.links s id)).isSome = true ∨
        ∀ v, ¬Chain.Leads s id (Chain.links s id) v) : Leaves s f true id
  /-- A full holder is seen through. -/
  | held {f : Frame} {b : Bool} {id content : NodeId}
      (h : s.graph.shape id = .holder (some content)) (rest : Leaves s f b content) :
      Leaves s f b id
  /-- A chain sets the flag for the value it leads to. -/
  | behind {f : Frame} {b : Bool} {id v : NodeId} (h : (Chain.link? s id).isSome = true)
      (hopen : Chain.closing? f.path (Chain.links s id) = none)
      (hleads : Chain.Leads s id (Chain.links s id) v)
      (rest : Leaves s (f.along (Chain.links s id) (Chain.locksBehind s id)) true v) :
      Leaves s f b id
  /-- The flag is set for every element that is no holder, and the last one decides. -/
  | element {f : Frame} {b : Bool} {id child : NodeId} {q : Sequence}
      (h : s.graph.shape id = .array q ∨ s.graph.shape id = .slice (some q)) (hopens : Opens s f id)
      (hlast : q.items.getLast? = some child)
      (rest : Leaves s f.deeper (!(s.graph.shape child).isHolder) child) : Leaves s f b id
  /-- In a map the value of the last entry decides. -/
  | entry {f : Frame} {b : Bool} {id : NodeId} {es ordered : List Entry} {e : Entry}
      (h : s.graph.shape id = .map (some es)) (hopens : Opens s f id)
      (hordered : Ordered s f.deeper es ordered) (hlast : ordered.getLast? = some e)
      (rest : Leaves s f.deeper (!(s.graph.shape e.value).isHolder) e.value) : Leaves s f b id
  /-- In a record the flag comes from one of the fields, and those after it leave it as it is. -/
  | field {f : Frame} {b : Bool} {id : NodeId} {before after : List Field} {fd : Field}
      (h : s.graph.shape id = .record (before ++ fd :: after)) (hopens : Opens s f id)
      (rest : Leaves s (f.deeper.within fd) false fd.value)
      (hafter : ∀ later ∈ after,
        Leaves s (f.deeper.within later) (!(s.graph.shape later.value).isHolder) later.value) :
      Leaves s f b id

section Inversion

variable {s : Scene} {f : Frame} {b : Bool} {id : NodeId}

/-- A value that leaves the flag set does so all the more if it was set before. -/
theorem Leaves.of_set (h : Leaves s f b id) : Leaves s f true id := by
  induction h with
  | invalid h => exact .invalid h
  | stopped h hstop => exact .stopped h hstop
  | held h _ ih => exact .held h ih
  | behind h hopen hleads rest _ => exact .behind h hopen hleads rest
  | element h hopens hlast rest _ => exact .element h hopens hlast rest
  | entry h hopens hordered hlast rest _ => exact .entry h hopens hordered hlast rest
  | field h hopens rest hafter _ _ => exact .field h hopens rest hafter

/-- A link stands at pointers and guards only. -/
theorem shape_of_link? (h : (Chain.link? s id).isSome = true) :
    (∃ a target, s.graph.shape id = .pointer a (some target)) ∨
      ∃ a content lock, s.graph.shape id = .guarded a content lock ∧
        s.config.disableGuardResolution = false := by
  unfold Chain.link? at h
  split at h
  · next a target hs => exact Or.inl ⟨a, target, hs⟩
  · next a content lock hs =>
      split at h
      · simp at h
      · next hd => exact Or.inr ⟨a, content, lock, hs, by simpa using hd⟩
  · simp at h

/-- Where a link stands there is nothing else. -/
theorem link?_eq_none_of_shape {shape : Shape} (hs : s.graph.shape id = shape)
    (hshape : shape.isIndirection s.config = false) : (Chain.link? s id).isSome = false := by
  rw [Bool.eq_false_iff]
  intro h
  rcases shape_of_link? h with ⟨a, target, hs'⟩ | ⟨a, content, lock, hs', hd⟩
  · rw [← hs, hs'] at hshape
    simp [Shape.isIndirection] at hshape
  · rw [← hs, hs'] at hshape
    simp [Shape.isIndirection, hd] at hshape

theorem leaves_invalid_iff (hs : s.graph.shape id = .invalid) : Leaves s f b id ↔ b = true := by
  constructor
  · intro h
    have hlink := link?_eq_none_of_shape hs rfl
    cases h <;> simp_all
  · rintro rfl
    exact .invalid hs

theorem leaves_holder_iff {content : NodeId} (hs : s.graph.shape id = .holder (some content)) :
    Leaves s f b id ↔ Leaves s f b content := by
  refine ⟨fun h => ?_, .held hs⟩
  have hlink := link?_eq_none_of_shape hs rfl
  cases h with
  | held hs' rest =>
      rw [hs] at hs'
      obtain rfl := Option.some.inj (Shape.holder.inj hs')
      exact rest
  | _ => simp_all

theorem leaves_sequence_iff {q : Sequence}
    (hs : s.graph.shape id = .array q ∨ s.graph.shape id = .slice (some q)) :
    Leaves s f b id ↔ Opens s f id ∧ ∃ child, q.items.getLast? = some child ∧
      Leaves s f.deeper (!(s.graph.shape child).isHolder) child := by
  constructor
  · intro h
    have hlink : (Chain.link? s id).isSome = false := by
      rcases hs with hs | hs
      · exact link?_eq_none_of_shape hs rfl
      · exact link?_eq_none_of_shape hs rfl
    cases h with
    | element hs' hopens hlast rest =>
        refine ⟨hopens, _, ?_, rest⟩
        rcases hs with hs | hs <;> rcases hs' with hs' | hs' <;> simp_all
    | _ => rcases hs with hs | hs <;> simp_all
  · rintro ⟨hopens, child, hlast, rest⟩
    exact .element hs hopens hlast rest

theorem leaves_map_iff {es : List Entry} (hs : s.graph.shape id = .map (some es)) :
    Leaves s f b id ↔ Opens s f id ∧ ∃ ordered e, Ordered s f.deeper es ordered ∧
      ordered.getLast? = some e ∧
      Leaves s f.deeper (!(s.graph.shape e.value).isHolder) e.value := by
  constructor
  · intro h
    have hlink := link?_eq_none_of_shape hs rfl
    cases h with
    | entry hs' hopens hordered hlast rest =>
        rw [hs] at hs'
        obtain rfl := Option.some.inj (Shape.map.inj hs')
        exact ⟨hopens, _, _, hordered, hlast, rest⟩
    | _ => simp_all
  · rintro ⟨hopens, ordered, e, hordered, hlast, rest⟩
    exact .entry hs hopens hordered hlast rest

theorem leaves_record_iff {fds : List Field} (hs : s.graph.shape id = .record fds) :
    Leaves s f b id ↔ Opens s f id ∧ ∃ before fd after, fds = before ++ fd :: after ∧
      Leaves s (f.deeper.within fd) false fd.value ∧ ∀ later ∈ after,
        Leaves s (f.deeper.within later) (!(s.graph.shape later.value).isHolder) later.value := by
  constructor
  · intro h
    have hlink := link?_eq_none_of_shape hs rfl
    cases h with
    | field hs' hopens rest hafter =>
        rw [hs] at hs'
        exact ⟨hopens, _, _, _, Shape.record.inj hs', rest, hafter⟩
    | _ => simp_all
  · rintro ⟨hopens, before, fd, after, rfl, rest, hafter⟩
    exact .field hs hopens rest hafter

/-- No plain value leaves the flag set. -/
theorem not_leaves_of_plain (h : (s.graph.shape id).isPlain s.config = true) :
    ¬Leaves s f b id := by
  have hlink : (Chain.link? s id).isSome = false := by
    refine link?_eq_none_of_shape rfl ?_
    cases hs : s.graph.shape id <;> simp_all [Shape.isPlain, Shape.isIndirection]
  intro hleaves
  cases hleaves with
  | invalid hs => simp [hs, Shape.isPlain] at h
  | stopped hl _ => simp [hlink] at hl
  | behind hl _ _ _ => simp [hlink] at hl
  | held hs _ => simp [hs, Shape.isPlain] at h
  | element hs _ _ _ => rcases hs with hs | hs <;> simp [hs, Shape.isPlain] at h
  | entry hs _ _ _ _ => simp [hs, Shape.isPlain] at h
  | field hs _ _ _ => simp [hs, Shape.isPlain] at h

/-- Nor does a value for which its description stands in. -/
theorem not_leaves_of_standsIn (hid : (s.graph.shape id).isIndirection s.config = false)
    (hfull : ∀ content, s.graph.shape id ≠ .holder (some content))
    (hinvalid : s.graph.shape id ≠ .invalid) (hstands : standsIn s f id = true) :
    ¬Leaves s f b id := by
  have hlink := link?_eq_none_of_shape rfl hid
  intro h
  cases h with
  | invalid hs => exact hinvalid hs
  | stopped hl _ => simp [hlink] at hl
  | behind hl _ _ _ => simp [hlink] at hl
  | held hs _ => exact hfull _ hs
  | element _ hopens _ _ => simp [hopens.2] at hstands
  | entry _ hopens _ _ _ => simp [hopens.2] at hstands
  | field _ hopens _ _ => simp [hopens.2] at hstands

/-- At a nil pointer the flag is consumed. -/
theorem not_leaves_of_nil {a : Address} (hs : s.graph.shape id = .pointer a none) :
    ¬Leaves s f b id := by
  have hlink : (Chain.link? s id).isSome = false := by simp [Chain.link?, hs]
  intro h
  cases h <;> simp_all

/-- A chain that ends without a value leaves the flag as it is. -/
theorem leaves_iff_of_ending {new : List Address} {link : Link} {ending : Ending}
    (hl : (Chain.link? s id).isSome = true)
    (hf : Chain.Follows s f.path id (Chain.links s id) new link)
    (hending : link.ending? = some ending) : Leaves s f b id ↔ b = true := by
  constructor
  · intro h
    cases h with
    | invalid _ => rfl
    | stopped _ _ => rfl
    | behind _ hopen hleads _ =>
        rw [hf.reaches _ hleads hopen] at hending
        simp [Link.ending?] at hending
    | held hs _ => simp [Chain.link?, hs] at hl
    | element hs _ _ _ => rcases hs with hs | hs <;> simp [Chain.link?, hs] at hl
    | entry hs _ _ _ _ => simp [Chain.link?, hs] at hl
    | field hs _ _ _ => simp [Chain.link?, hs] at hl
  · rintro rfl
    refine .stopped hl ?_
    cases hclosing : Chain.closing? f.path (Chain.links s id) with
    | some a => exact Or.inl rfl
    | none =>
        right
        intro v hleads
        rw [hf.reaches v hleads hclosing] at hending
        simp [Link.ending?] at hending

/-- A chain sets the flag for the value it leads to. -/
theorem leaves_iff_of_value {new : List Address} {v : NodeId}
    (hl : (Chain.link? s id).isSome = true)
    (hf : Chain.Follows s f.path id (Chain.links s id) new (.value v)) :
    Leaves s f b id ↔ Leaves s (f.along (Chain.links s id) (Chain.locksBehind s id)) true v := by
  obtain ⟨-, hleads⟩ := hf.value v rfl
  have hopen : Chain.closing? f.path (Chain.links s id) = none := hf.closing?_eq_none
  refine ⟨fun h => ?_, .behind hl hopen hleads⟩
  cases h with
  | invalid hs => simp [Chain.link?, hs] at hl
  | stopped _ hstop =>
      rcases hstop with hstop | hstop
      · simp [hopen] at hstop
      · exact absurd hleads (hstop v)
  | behind _ _ hleads' rest =>
      obtain rfl := Link.value.inj (hf.reaches _ hleads' hopen)
      exact rest
  | held hs _ => simp [Chain.link?, hs] at hl
  | element hs _ _ _ => rcases hs with hs | hs <;> simp [Chain.link?, hs] at hl
  | entry hs _ _ _ _ => simp [Chain.link?, hs] at hl
  | field hs _ _ _ => simp [Chain.link?, hs] at hl

end Inversion

/-- The order in which entries are shown is one. -/
theorem Ordered.unique {s : Scene} {f : Frame} {es ordered ordered' : List Entry}
    (h : Ordered s f es ordered) (h' : Ordered s f es ordered') : ordered = ordered' := by
  obtain ⟨n, hn⟩ := h
  obtain ⟨m, hm⟩ := h'
  unfold order at hn hm
  split at hn
  · next hsort =>
      rw [if_pos hsort] at hm
      have hn' := sort_of_le (Nat.le_max_left n m) hn
      have hm' := sort_of_le (Nat.le_max_right n m) hm
      exact Option.some.inj (hn'.symm.trans hm')
  · next hsort =>
      rw [if_neg hsort] at hm
      exact Option.some.inj (hn.symm.trans hm)

end Walk

/-! ### What a computation makes of the flag -/

namespace Render

/-- **What a computation makes of the type flag**, by the frame and the flag before it.  All else of
the state is given back. -/
def Tells (m : Render Unit) (P : Frame → Bool → Prop) : Prop :=
  ∀ st σ, (m st).result = some ((), σ) →
    σ.setting = st.setting ∧ (σ.skipType = true ↔ P st.frame st.skipType)

namespace Tells

variable {m k : Render Unit} {P Q : Frame → Bool → Prop}

theorem congr (h : Tells m P) (hPQ : ∀ f b, P f b ↔ Q f b) : Tells m Q := by
  intro st σ hσ
  obtain ⟨hsetting, hflag⟩ := h st σ hσ
  exact ⟨hsetting, hflag.trans (hPQ _ _)⟩

theorem of_run {next : RenderState → RenderState} (hrun : ∀ st, (m st).result = some ((), next st))
    (hsetting : ∀ st, (next st).setting = st.setting)
    (hflag : ∀ st, (next st).skipType = true ↔ P st.frame st.skipType) : Tells m P := by
  intro st σ hσ
  rw [hrun, Option.some.injEq, Prod.mk.injEq] at hσ
  rw [← hσ.2]
  exact ⟨hsetting st, hflag st⟩

theorem write (t : String) : Tells (Render.write t) fun _ b => b = true :=
  of_run (fun _ => rfl) (fun _ => rfl) fun _ => Iff.rfl

protected theorem pure : Tells (pure ()) fun _ b => b = true :=
  of_run (fun _ => rfl) (fun _ => rfl) fun _ => Iff.rfl

theorem setSkipType (v : Bool) : Tells (Render.setSkipType v) fun _ _ => v = true :=
  of_run (fun _ => rfl) (fun _ => rfl) fun _ => Iff.rfl

/-- The second computation starts with what the first made of the flag. -/
protected theorem bind (hm : Tells m P) (hk : Tells k Q) :
    Tells (m >>= fun _ => k) fun f b => P f b ∧ Q f true ∨ ¬P f b ∧ Q f false := by
  intro st τ h
  obtain ⟨⟨⟩, σ, hmσ, hkτ, -⟩ := exists_of_bind h
  obtain ⟨hsetting, hflag⟩ := hm st σ hmσ
  obtain ⟨hsetting', hflag'⟩ := hk σ τ hkτ
  have hframe : σ.frame = st.frame := congrArg Prod.fst hsetting
  refine ⟨hsetting'.trans hsetting, ?_⟩
  rw [hflag', hframe]
  dsimp only
  rw [← hflag]
  cases σ.skipType with
  | false => simp
  | true => simp

/-- A computation that leaves the flag alone, in front of another. -/
theorem keep_bind (hm : Tells m fun _ b => b = true) (hk : Tells k P) :
    Tells (m >>= fun _ => k) P := by
  refine (hm.bind hk).congr fun f b => ?_
  cases b with
  | false => simp
  | true => simp

/-- A computation that leaves the flag alone, after another. -/
theorem bind_keep (hm : Tells m P) (hk : Tells k fun _ b => b = true) :
    Tells (m >>= fun _ => k) P :=
  (hm.bind hk).congr fun f b => by simp

/-- What is made of the flag before does not matter if the next computation sets it. -/
theorem bind_const {P' : Frame → Prop} (hm : Tells m P) (hk : Tells k fun f _ => P' f) :
    Tells (m >>= fun _ => k) fun f _ => P' f :=
  (hm.bind hk).congr fun f b => by
    by_cases h : P f b
    · simp [h]
    · simp [h]

end Tells

end Render

namespace Mode

variable {α : Type} {mode : Mode} {part : α → Render Unit}

/-- Of parts that do not heed the flag the last one decides. -/
theorem list_tells_last {P : α → Frame → Prop} (h : ∀ x, Tells (part x) fun f _ => P x f)
    (xs : List α) :
    Tells (mode.list part xs) fun f b => xs.getLast?.elim (b = true) fun x => P x f := by
  induction xs with
  | nil => exact Tells.pure
  | cons x xs ih =>
      cases xs with
      | nil => exact (h x).bind_keep (Tells.write _)
      | cons y rest =>
          have hlast : (x :: y :: rest).getLast? = (y :: rest).getLast? := List.getLast?_cons_cons
          obtain ⟨z, hz⟩ : ∃ z, (y :: rest).getLast? = some z :=
            ⟨_, List.getLast?_eq_some_getLast (by simp)⟩
          rw [hlast]
          simp only [hz, Option.elim_some] at ih ⊢
          exact (h x).bind_const (Tells.keep_bind (Tells.write _) ih)

/-- The place of an element of a list with all after it. -/
theorem exists_split_cons {p r : α → Prop} {x : α} {xs : List α} :
    (∃ before z after, x :: xs = before ++ z :: after ∧ p z ∧ ∀ y ∈ after, r y) ↔
      (p x ∧ ∀ y ∈ xs, r y) ∨
        ∃ before z after, xs = before ++ z :: after ∧ p z ∧ ∀ y ∈ after, r y := by
  constructor
  · rintro ⟨before, z, after, heq, hz, hafter⟩
    cases before with
    | nil =>
        obtain ⟨rfl, rfl⟩ := List.cons.inj heq
        exact Or.inl ⟨hz, hafter⟩
    | cons w before =>
        obtain ⟨-, rfl⟩ := List.cons.inj heq
        exact Or.inr ⟨before, z, after, rfl, hz, hafter⟩
  · rintro (⟨hx, hxs⟩ | ⟨before, z, after, rfl, hz, hafter⟩)
    · exact ⟨[], x, xs, rfl, hx, hxs⟩
    · exact ⟨x :: before, z, after, rfl, hz, hafter⟩

/-- Parts that hand the flag on: it is set in the end if one of them set it, or it was set before,
and all after that kept it. -/
theorem list_tells_thread {Q : α → Frame → Bool → Prop} (hset : ∀ x f, Q x f false → Q x f true)
    (h : ∀ x, Tells (part x) (Q x)) (xs : List α) :
    Tells (mode.list part xs) fun f b =>
      (∃ before x after, xs = before ++ x :: after ∧ Q x f false ∧ ∀ y ∈ after, Q y f true) ∨
        b = true ∧ ∀ x ∈ xs, Q x f true := by
  induction xs with
  | nil => exact Tells.pure.congr fun f b => by simp
  | cons x xs ih =>
      -- what comes after the first part starts with the flag it leaves
      obtain ⟨rest, hlist, hrest⟩ : ∃ rest, mode.list part (x :: xs) = (part x >>= fun _ => rest) ∧
          Tells rest fun f b =>
            (∃ before x after, xs = before ++ x :: after ∧ Q x f false ∧ ∀ y ∈ after, Q y f true) ∨
              b = true ∧ ∀ x ∈ xs, Q x f true := by
        cases xs with
        | nil => exact ⟨_, rfl, (Tells.write _).congr fun f b => by simp⟩
        | cons y rest => exact ⟨_, rfl, Tells.keep_bind (Tells.write _) ih⟩
      rw [hlist]
      refine ((h x).bind hrest).congr fun f b => ?_
      rw [exists_split_cons, List.forall_mem_cons]
      have hx := hset x f
      cases b with
      | false => grind
      | true => grind

/-- The header of a compact text clears the flag. -/
theorem header_compact_result (s : Scene) (n : Node) (types details : Bool) (st : RenderState) :
    (header s n (.compact types details) st).result =
      some ((), { st with skipType := false }) := by
  simp only [header]
  rw [run_get_bind]
  split
  · rfl
  · rfl

theorem chainHeader_compact_result (s : Scene) (chain : Chain) (link : Link)
    (types details : Bool) (st : RenderState) :
    (chainHeader s chain link (.compact types details) st).result = some ((), st) := by
  simp only [chainHeader]
  rw [run_get_bind]
  cases details with
  | _ =>
      split
      · rfl
      · rfl

/-- A container hands the flag to its contents and takes it back from them, unless the depth limit
hides them. -/
theorem nest_compact_tells {s : Scene} {id : NodeId} {bracket : Bracket} {inside : Render Unit}
    {types details : Bool} {P : Frame → Bool → Prop} (h : Tells inside P) :
    Tells (nest s id bracket inside (.compact types details)) fun f b =>
      s.config.atLimit f.depth = true ∧ b = true ∨
        s.config.atLimit f.depth = false ∧ P f.deeper b := by
  intro st σ hσ
  simp only [nest] at hσ
  obtain ⟨⟨⟩, σ₀, hopening, hσ, -⟩ := exists_of_bind hσ
  obtain rfl : st = σ₀ := (Prod.mk.inj (Option.some.inj hopening)).2
  rw [run_get_bind] at hσ
  cases hlimit : s.config.atLimit st.depth with
  | true =>
      rw [if_pos hlimit] at hσ
      obtain rfl : st = σ := (Prod.mk.inj (Option.some.inj hσ)).2
      refine ⟨rfl, ?_⟩
      simp [RenderState.frame, hlimit]
  | false =>
      rw [if_neg (by simp [hlimit])] at hσ
      have hrun : ((deeper inside >>= fun _ => Render.write bracket.closing) st).result =
          some ((), σ) := hσ
      obtain ⟨⟨⟩, σ₁, hdeeper, hclosing, -⟩ := exists_of_bind hrun
      obtain rfl : σ₁ = σ := (Prod.mk.inj (Option.some.inj hclosing)).2
      have hinside : ((inside >>= fun _ =>
          (modify fun st => { st with depth := st.depth - 1 } : Render PUnit))
            { st with depth := st.depth + 1 }).result = some ((), σ₁) := hdeeper
      obtain ⟨⟨⟩, τ, hτ, hback, -⟩ := exists_of_bind hinside
      obtain rfl : { τ with depth := τ.depth - 1 } = σ₁ :=
        (Prod.mk.inj (Option.some.inj hback)).2
      obtain ⟨hsetting, hflag⟩ := h _ τ hτ
      simp only [RenderState.setting, RenderState.frame, Prod.mk.injEq, Frame.mk.injEq]
        at hsetting ⊢
      obtain ⟨⟨hpath, hdepth, hprivate⟩, hindent⟩ := hsetting
      refine ⟨⟨⟨hpath, by omega, hprivate⟩, hindent⟩, ?_⟩
      rw [hflag]
      simp [RenderState.frame, Frame.deeper, hlimit]

end Mode

namespace Walk

section Flag

variable {s : Scene} {n : Nat} {types details : Bool} {visit : Visit}

theorem nested_tells {child : NodeId}
    (h : Tells (visit (.compact types details) child) fun f b => Leaves s f b child) :
    Tells (nested s visit (.compact types details) child) fun f b =>
      Leaves s f (b && !(s.graph.shape child).isHolder) child := by
  unfold nested
  simp only [Mode.beginNested]
  cases (s.graph.shape child).isHolder with
  | true => exact ((Tells.setSkipType false).bind h).congr fun f b => by simp
  | false => exact (Tells.keep_bind Tells.pure h).congr fun f b => by simp

theorem part_tells {child : NodeId}
    (h : Tells (visit (.compact types details) child) fun f b => Leaves s f b child) :
    Tells (part s visit (.compact types details) child) fun f _ =>
      Leaves s f (!(s.graph.shape child).isHolder) child :=
  ((Tells.setSkipType true).bind (nested_tells h)).congr fun f b => by simp

theorem field_tells {fd : Field}
    (h : Tells (visit (.compact types details) fd.value) fun f b => Leaves s f b fd.value) :
    Tells (field s visit (.compact types details) fd) fun f b =>
      Leaves s (f.within fd) (b && !(s.graph.shape fd.value).isHolder) fd.value := by
  have hlabel :
      Tells (Mode.label s.config fd.name (.compact types details)) fun _ b => b = true := by
    simp only [Mode.label]
    split
    · exact Tells.write _
    · exact Tells.pure
  refine Tells.keep_bind hlabel ?_
  -- the privacy is changed around the value and given back after it
  intro st σ hσ
  have hrun : ((nested s visit (.compact types details) fd.value >>= fun _ =>
      (modify fun τ => { τ with inPrivate := st.inPrivate } : Render PUnit))
        { st with inPrivate := st.inPrivate || fd.visibility == .internal }).result =
      some ((), σ) := hσ
  obtain ⟨⟨⟩, τ, hτ, hback, -⟩ := exists_of_bind hrun
  obtain rfl : { τ with inPrivate := st.inPrivate } = σ := (Prod.mk.inj (Option.some.inj hback)).2
  obtain ⟨hsetting, hflag⟩ := nested_tells h _ τ hτ
  simp only [RenderState.setting, RenderState.frame, Prod.mk.injEq, Frame.mk.injEq] at hsetting ⊢
  obtain ⟨⟨hpath, hdepth, -, hheld⟩, hindent⟩ := hsetting
  exact ⟨⟨⟨hpath, hdepth, trivial, hheld⟩, hindent⟩, hflag⟩

theorem entry_tells (h : ∀ child,
      Tells (visit (.compact types details) child) fun f b => Leaves s f b child) (e : Entry) :
    Tells (entry s visit (.compact types details) e) fun f _ =>
      Leaves s f (!(s.graph.shape e.value).isHolder) e.value := by
  refine (part_tells (h e.key)).bind_const ?_
  exact Tells.keep_bind (Tells.write _) (part_tells (h e.value))

theorem entries_tells (h : ∀ child,
      Tells (visit (.compact types details) child) fun f b => Leaves s f b child)
    (es : List Entry) :
    Tells (entries s (keyTexts s n) visit (.compact types details) es) fun f b =>
      ∃ ordered, Ordered s f es ordered ∧ ordered.getLast?.elim (b = true) fun e =>
        Leaves s f (!(s.graph.shape e.value).isHolder) e.value := by
  intro st σ hσ
  obtain ⟨ordered, horder, hlist⟩ : ∃ ordered, (order s n st.frame es).result = some ordered ∧
      (Mode.list (.compact types details) (entry s visit (.compact types details)) ordered
        st).result = some ((), σ) := by
    obtain ⟨ordered, τ, harranged, hlist, -⟩ := exists_of_bind hσ
    unfold arranged at harranged
    unfold order
    split at harranged
    · next hsort =>
        rw [run_get_bind] at harranged
        obtain ⟨ordered', hordered, hτ⟩ := Trace.exists_of_bind harranged
        obtain ⟨rfl, rfl⟩ := Prod.mk.inj (Option.some.inj hτ)
        rw [if_pos hsort]
        exact ⟨ordered', hordered, hlist⟩
    · next hsort =>
        rw [if_neg hsort]
        obtain ⟨rfl, rfl⟩ := Prod.mk.inj (Option.some.inj harranged)
        exact ⟨es, rfl, hlist⟩
  obtain ⟨hsetting, hflag⟩ := Mode.list_tells_last (entry_tells h) ordered st σ hlist
  refine ⟨hsetting, hflag.trans ⟨fun hlast => ⟨ordered, ⟨n, horder⟩, hlast⟩, ?_⟩⟩
  rintro ⟨ordered', hordered, hlast⟩
  rwa [hordered.unique ⟨n, horder⟩] at hlast

/-- Whether a description stands in for a value depends on the frame alone. -/
theorem standsIn_eq {id : NodeId} {answer : Answer} {b : Bool} {st σ : RenderState}
    (h : (ask s (s.graph.node id) st).result = some ((answer, b), σ)) :
    standsIn s st.frame id = b := by
  have hask : (ask s (s.graph.node id) (st.frame.state false)).result.map (fun r => r.1) =
      (ask s (s.graph.node id) st).result.map fun r => r.1 := by
    have hhook : (st.frame.state false).hookAllowed s = st.hookAllowed s := rfl
    unfold ask
    rw [run_get_bind, run_get_bind, hhook]
    split
    · obtain ⟨-, hr⟩ := (s.graph.node id).consult_quiet s.config
      obtain ⟨r, hr⟩ := Option.isSome_iff_exists.1 hr
      rw [run_lift_of_some hr, run_lift_of_some hr]
      rfl
    · rfl
  rw [h] at hask
  obtain ⟨⟨r, τ⟩, hr, heq⟩ := Option.map_eq_some_iff.1 hask
  rw [standsIn, hr, Option.map_some, Option.getD_some, heq]

/-- A value that is no full holder, not invalid and no indirection is shown with its front. -/
theorem shape_of_fronted {id : NodeId} {F : Form} (hform : form s id = F)
    (hheld : ∀ content, F ≠ .held content) (hinvalid : F ≠ .invalid) (hchain : F ≠ .chain) :
    (s.graph.shape id).isIndirection s.config = false ∧
      (∀ content, s.graph.shape id ≠ .holder (some content)) ∧ s.graph.shape id ≠ .invalid := by
  subst hform
  refine ⟨Bool.eq_false_iff.2 fun hid => hchain (form_eq_chain_iff.2 hid), ?_, ?_⟩
  · intro content hs
    exact hheld content (by rw [form, hs]; rfl)
  · intro hs
    exact hinvalid (by rw [form, hs]; rfl)

/-- What is shown as a text leaves no flag. -/
theorem isPlain_of_leaf {id : NodeId} {text : Mode → String} (h : form s id = .leaf text) :
    (s.graph.shape id).isPlain s.config = true := by
  unfold form formOf at h
  split at h <;> try split at h
  all_goals simp_all [Shape.isPlain, Shape.isIndirection]

/-- **What is behind a front leaves the flag** as it does after the header has cleared it, unless a
description stands in for it. -/
theorem fronted_leaves_iff {id : NodeId} {F : Form} (hform : form s id = F)
    (hheld : ∀ content, F ≠ .held content) (hinvalid : F ≠ .invalid) (hchain : F ≠ .chain)
    {inner : Render Unit} {b : Bool}
    (hinner : ∀ st σ, st.skipType = false → standsIn s st.frame id = false →
      (inner st).result = some ((), σ) →
        σ.setting = st.setting ∧ (σ.skipType = true ↔ Leaves s st.frame b id)) {st σ : RenderState}
    (h : (fronted s (.compact types details) id inner st).result = some ((), σ)) :
    σ.skipIndent = st.skipIndent ∧ (σ.skipType = true ↔ Leaves s st.frame b id) := by
  obtain ⟨τ, answer, stands, hheader, hask, hrest, -⟩ := fronted_inv h
  rw [Mode.header_compact_result, Option.some.injEq, Prod.mk.injEq] at hheader
  obtain ⟨-, rfl⟩ := hheader
  have hstands := standsIn_eq hask
  cases stands with
  | false =>
      obtain ⟨hsetting, hflag⟩ := hinner _ σ rfl hstands hrest
      exact ⟨congrArg Prod.snd hsetting, hflag⟩
  | true =>
      obtain rfl : { st with skipType := false } = σ := (Prod.mk.inj (Option.some.inj hrest)).2
      obtain ⟨hid, hfull, hvalid⟩ := shape_of_fronted hform hheld hinvalid hchain
      have hnot : ¬Leaves s st.frame b id := not_leaves_of_standsIn hid hfull hvalid hstands
      exact ⟨rfl, by simp [hnot]⟩

section Inside

variable {id : NodeId} {st σ : RenderState} {b : Bool}
  (hvisit : ∀ child, Tells (visit (.compact types details) child) fun f b => Leaves s f b child)
  (hst : st.skipType = false) (hstands : standsIn s st.frame id = false)

include hvisit hst hstands

/-- The elements of a sequence. -/
theorem sequence_leaves_iff {q : Sequence} (hform : form s id = .sequence q)
    (h : (Mode.nest s id .sequence (elements s visit (.compact types details) q)
      (.compact types details) st).result = some ((), σ)) :
    σ.setting = st.setting ∧ (σ.skipType = true ↔ Leaves s st.frame b id) := by
  have hlist : Tells (elements s visit (.compact types details) q) _ :=
    Mode.list_tells_last (fun child => part_tells (hvisit child)) q.items
  obtain ⟨hsetting, hflag⟩ := Mode.nest_compact_tells hlist st σ h
  refine ⟨hsetting, hflag.trans ?_⟩
  rw [leaves_sequence_iff (shape_of_sequence hform), Opens, hst]
  cases q.items.getLast? with
  | none => simp
  | some child => simp [hstands]

/-- The entries of a map. -/
theorem map_leaves_iff {es : List Entry} (hform : form s id = .map es)
    (h : (Mode.nest s id .map (entries s (keyTexts s n) visit (.compact types details) es)
      (.compact types details) st).result = some ((), σ)) :
    σ.setting = st.setting ∧ (σ.skipType = true ↔ Leaves s st.frame b id) := by
  obtain ⟨hsetting, hflag⟩ := Mode.nest_compact_tells (entries_tells hvisit es) st σ h
  refine ⟨hsetting, hflag.trans ?_⟩
  rw [leaves_map_iff (shape_of_map hform), Opens, hst]
  simp only [hstands, and_true, Bool.false_eq_true, and_false, false_or]
  refine and_congr_right fun _ => exists_congr fun ordered => ?_
  cases ordered.getLast? with
  | none => simp
  | some e => simp

/-- The fields of a record. -/
theorem record_leaves_iff {fds : List Field} (hform : form s id = .record fds)
    (h : (Mode.nest s id .record (Mode.list (.compact types details)
      (field s visit (.compact types details)) fds) (.compact types details) st).result =
        some ((), σ)) :
    σ.setting = st.setting ∧ (σ.skipType = true ↔ Leaves s st.frame b id) := by
  have hset (fd : Field) (f : Frame)
      (hleaves : Leaves s (f.within fd) (false && !(s.graph.shape fd.value).isHolder) fd.value) :
      Leaves s (f.within fd) (true && !(s.graph.shape fd.value).isHolder) fd.value := by
    cases hholder : (s.graph.shape fd.value).isHolder with
    | false => exact hleaves.of_set
    | true => simpa using hleaves
  have hlist : Tells (Mode.list (.compact types details)
      (field s visit (.compact types details)) fds) _ :=
    Mode.list_tells_thread hset (fun fd => field_tells (hvisit fd.value)) fds
  obtain ⟨hsetting, hflag⟩ := Mode.nest_compact_tells hlist st σ h
  refine ⟨hsetting, hflag.trans ?_⟩
  rw [leaves_record_iff (shape_of_record hform), Opens, hst]
  simp [hstands]

end Inside

/-- The end of a chain: the value there, with the flag set for it, or a mark. -/
theorem finish_compact_inv {chain : Chain} {link : Link} {st σ : RenderState}
    (h : (finish s visit (.compact types details) chain link st).result = some ((), σ)) :
    (∃ v, link = .value v ∧
      ∃ τ, (visit (.compact types details) v
        { st with skipType := true, held := chain.locks ++ st.held }).result = some ((), τ) ∧
        σ = { τ with held := st.held }) ∨
    ((∃ ending, link.ending? = some ending) ∧ σ = st) := by
  obtain ⟨ρ, hρ, ⟨v, τ, rfl, hvalue, hfooter, -⟩ | ⟨ending, hending, hfooter, -⟩⟩ := finish_inv h
  · rw [Mode.chainHeader_compact_result, Option.some.injEq, Prod.mk.injEq] at hρ
    obtain ⟨-, rfl⟩ := hρ
    exact Or.inl ⟨v, rfl, τ, hvalue, (Prod.mk.inj (Option.some.inj hfooter)).2.symm⟩
  · rw [Mode.chainHeader_compact_result, Option.some.injEq, Prod.mk.injEq] at hρ
    obtain ⟨-, rfl⟩ := hρ
    exact Or.inr ⟨⟨ending, hending⟩, (Prod.mk.inj (Option.some.inj hfooter)).2.symm⟩

/-- A chain hands the flag to the value it leads to, and leaves it alone if there is none. -/
theorem follow_leaves_iff {id : NodeId} (hvisit : ∀ child,
      Tells (visit (.compact types details) child) fun f b => Leaves s f b child)
    (hl : (Chain.link? s id).isSome = true) {st σ : RenderState}
    (h : (follow s visit (.compact types details) id st).result = some ((), σ)) :
    σ.skipIndent = st.skipIndent ∧
      (σ.skipType = true ↔ Leaves s st.frame st.skipType id) := by
  obtain ⟨chain, link, new, τ, hf, hlocks, hfinish, rfl, -⟩ := follow_inv h
  rcases finish_compact_inv hfinish with ⟨v, rfl, ρ, hv, rfl⟩ | ⟨⟨ending, hending⟩, rfl⟩
  · obtain ⟨hsetting, hflag⟩ := hvisit v _ ρ hv
    refine ⟨congrArg Prod.snd hsetting, ?_⟩
    have hnew := (hf.value v rfl).1
    subst hnew
    rw [leaves_iff_of_value hl hf]
    rw [hlocks v rfl] at hflag
    exact hflag
  · refine ⟨rfl, ?_⟩
    rw [leaves_iff_of_ending hl hf hending]
    rfl

/-- A chain at a nil pointer leaves the state alone. -/
theorem follow_nil {id : NodeId} {a : Address} (hs : s.graph.shape id = .pointer a none)
    {st σ : RenderState}
    (h : (follow s visit (.compact types details) id st).result = some ((), σ)) :
    σ.skipIndent = st.skipIndent ∧ σ.skipType = st.skipType := by
  obtain ⟨chain, link, new, τ, hf, -, hfinish, rfl, -⟩ := follow_inv h
  rcases finish_compact_inv hfinish with ⟨v, rfl, -⟩ | ⟨-, rfl⟩
  · obtain ⟨-, hleads⟩ := hf.value v rfl
    exact absurd hleads (Chain.not_leads_of_nil hs)
  · exact ⟨rfl, rfl⟩

/-- An indirection starts a chain, a nil pointer perhaps not. -/
theorem chain_compact_inv {id : NodeId} {st σ : RenderState}
    (h : (indirection s visit (.compact types details) id st).result = some ((), σ)) :
    ((follow s visit (.compact types details) id st).result = some ((), σ) ∧
      ∀ a, s.graph.shape id = .pointer a none → st.skipType = false) ∨
    ((∃ a, s.graph.shape id = .pointer a none) ∧ σ = { st with skipType := false }) := by
  simp only [indirection, Mode.beginChain] at h
  split at h
  · next a hs =>
      rw [bind_assoc, run_get_bind] at h
      split at h
      · exact Or.inr ⟨⟨a, hs⟩, (Prod.mk.inj (Option.some.inj h)).2.symm⟩
      · next hshow =>
          have hflag : types = true ∧ st.skipType = false := by simpa using hshow
          exact Or.inl ⟨h, fun _ _ => hflag.2⟩
  · next hnot => exact Or.inl ⟨h, fun a hs => absurd hs (hnot a)⟩

/-- An indirection that is no nil pointer has a link. -/
theorem link?_isSome_or_nil {id : NodeId}
    (hid : (s.graph.shape id).isIndirection s.config = true) :
    (Chain.link? s id).isSome = true ∨ ∃ a, s.graph.shape id = .pointer a none := by
  cases hl : Chain.link? s id with
  | some l => exact Or.inl rfl
  | none =>
      rcases Chain.not_isIndirection_or_nil hl with hno | hnil
      · simp [hid] at hno
      · exact Or.inr hnil

end Flag

/-- **Which values leave the flag set.** -/
theorem walk_leaves_iff (s : Scene) (n : Nat) (types details : Bool) (id : NodeId) :
    Tells (walk s n (.compact types details) id) fun f b => Leaves s f b id := by
  induction n generalizing id with
  | zero =>
      intro st σ h
      simp [walk] at h
  | succ n ih =>
      intro st σ h
      have hframe : σ.frame = st.frame := walk_frame s (n + 1) _ id h
      suffices hflag : σ.skipIndent = st.skipIndent ∧
          (σ.skipType = true ↔ Leaves s st.frame st.skipType id) from
        ⟨Prod.ext hframe hflag.1, hflag.2⟩
      rw [walk_succ, level_eq_shown] at h
      cases hform : form s id with
      | held content =>
          rw [hform] at h
          obtain ⟨hsetting, hflag⟩ := ih content st σ h
          rw [leaves_holder_iff (shape_of_held hform)]
          exact ⟨congrArg Prod.snd hsetting, hflag⟩
      | invalid =>
          rw [hform] at h
          obtain rfl : st = σ := (Prod.mk.inj (Option.some.inj h)).2
          rw [leaves_invalid_iff (shape_of_invalid hform)]
          exact ⟨rfl, Iff.rfl⟩
      | chain =>
          rw [hform] at h
          rcases link?_isSome_or_nil (form_eq_chain_iff.1 hform) with hl | ⟨a, hs⟩
          · rcases chain_compact_inv h with ⟨h, -⟩ | ⟨⟨a, hs⟩, -⟩
            · exact follow_leaves_iff ih hl h
            · simp [Chain.link?, hs] at hl
          · -- whichever way it is shown, a nil pointer leaves the flag clear
            have hclear : σ.skipIndent = st.skipIndent ∧ σ.skipType = false := by
              rcases chain_compact_inv h with ⟨h, hflag⟩ | ⟨-, rfl⟩
              · rw [← hflag a hs]
                exact follow_nil hs h
              · exact ⟨rfl, rfl⟩
            simp [hclear, not_leaves_of_nil hs]
      | leaf text =>
          rw [hform] at h
          refine fronted_leaves_iff hform (by simp) (by simp) (by simp) ?_ h
          intro τ σ hclear _ hτ
          obtain rfl : τ = σ := (Prod.mk.inj (Option.some.inj hτ)).2
          exact ⟨rfl, by simp [hclear, not_leaves_of_plain (isPlain_of_leaf hform)]⟩
      | sequence q =>
          rw [hform] at h
          exact fronted_leaves_iff hform (by simp) (by simp) (by simp)
            (fun _ _ hclear hstands => sequence_leaves_iff ih hclear hstands hform) h
      | map es =>
          rw [hform] at h
          exact fronted_leaves_iff hform (by simp) (by simp) (by simp)
            (fun _ _ hclear hstands => map_leaves_iff ih hclear hstands hform) h
      | record fds =>
          rw [hform] at h
          exact fronted_leaves_iff hform (by simp) (by simp) (by simp)
            (fun _ _ hclear hstands => record_leaves_iff ih hclear hstands hform) h

end Walk

end ValueLens
