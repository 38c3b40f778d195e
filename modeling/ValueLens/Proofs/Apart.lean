/-
**Siblings in a compact text.**

The text of an element, key, value or field by itself is what is shown of it from the state with its
frame and both suppression flags clear.  Elements of sequences and keys and values of maps are shown
as they are by themselves, whatever stands before them, because the type flag is set anew for each.
A field of a record takes the flag as the fields before it leave it.  If none of them leaves it set,
the fields are shown as they are by themselves; otherwise a field may lose its type.  Where types
are not shown the flag has no effect, and fields too are always shown as they are by themselves.

Main definitions:

* `ValueLens.Walk.apart`, `ValueLens.Walk.fieldApart` — the text of a part or a field by itself;
* `ValueLens.Walk.untyped` — the accord of two compact texts without types.

Main results:

* `ValueLens.Walk.untyped_fits` — without types the flags have no effect;
* `ValueLens.Walk.compact_child_leaves_type_flag_iff` — **which children leave the type flag set,
  and what that means for their siblings**.
-/
import ValueLens.Proofs.Lingering

set_option relaxedAutoImplicit false
set_option autoImplicit false

namespace ValueLens

open Render

/-! ### Parts side by side -/

namespace Render.Yields

variable {α : Type} {m : Render Unit} {st : RenderState} {C : RenderState → Prop}

/-- A computation does what it does by itself, and ends in some state. -/
theorem of_final (hst : C st) (h : ∀ σ, (m st).result = some ((), σ) → C σ) :
    ∃ σ, C σ ∧ Yields m st (m.run' st) σ := by
  cases hr : (m st).result with
  | none => exact ⟨st, hst, of_back (by simp [hr])⟩
  | some r =>
      obtain ⟨⟨⟩, σ⟩ := r
      refine ⟨σ, h σ hr, of_back fun σ' hσ' => ?_⟩
      rw [hr] at hσ'
      exact (Prod.mk.inj (Option.some.inj hσ')).2.symm

/-- A trace in front of a computation. -/
theorem lift_bind {t : Trace α} {k : α → Render Unit} {u : α → Trace Unit} (hst : C st)
    (h : ∀ a, t.result = some a → ∃ σ, C σ ∧ Yields (k a) st (u a) σ) :
    ∃ σ, C σ ∧ Yields (liftM t >>= k) st (t >>= u) σ := by
  have hrun : (liftM t >>= k) st = t >>= fun a => k a st := by
    change (t >>= fun a => pure (a, st)) >>= (fun p => k p.1 p.2) = _
    rw [Trace.bind_assoc]
    simp only [Trace.pure_bind]
  cases ht : t.result with
  | none =>
      refine ⟨st, hst, ?_⟩
      rw [Yields, hrun, Trace.bind_assoc, Trace.bind_of_none ht, Trace.bind_of_none ht]
  | some a =>
      obtain ⟨σ, hσ, hyields⟩ := h a ht
      refine ⟨σ, hσ, ?_⟩
      rw [Yields, hrun, Trace.bind_assoc]
      refine Trace.bind_congr fun a' ha' => ?_
      obtain rfl : a = a' := Option.some.inj (ht.symm.trans ha')
      exact hyields

end Render.Yields

namespace Mode

variable {α : Type} {mode : Mode} {part : α → Render Unit} {alone : α → Trace Unit}

/-- Parts that show the same from a class of states, and end in it, are shown side by side. -/
theorem list_yields_within {C : RenderState → Prop}
    (h : ∀ x st, C st → ∃ σ, C σ ∧ Yields (part x) st (alone x) σ) (xs : List α)
    {st : RenderState} (hst : C st) :
    ∃ σ, C σ ∧ Yields (mode.list part xs) st (mode.row alone xs) σ := by
  induction xs generalizing st with
  | nil => exact ⟨st, hst, rfl⟩
  | cons x xs ih =>
      obtain ⟨σ, hσ, hx⟩ := h x st hst
      cases xs with
      | nil => exact ⟨σ, hσ, hx.bind rfl⟩
      | cons y rest =>
          obtain ⟨τ, hτ, hrest⟩ := ih hσ
          have hdivider : Yields (Render.write mode.divider) σ (Trace.write mode.divider) σ := rfl
          exact ⟨τ, hτ, hx.bind (hdivider.bind hrest)⟩

/-- Parts of which all but the last give back the state they found. -/
theorem list_yields_init {st : RenderState} {xs : List α}
    (h : ∀ x ∈ xs.dropLast, Yields (part x) st (alone x) st)
    (hlast : ∀ x, ∃ σ, Yields (part x) st (alone x) σ) :
    ∃ σ, Yields (mode.list part xs) st (mode.row alone xs) σ := by
  induction xs with
  | nil => exact ⟨st, rfl⟩
  | cons x xs ih =>
      cases xs with
      | nil =>
          obtain ⟨σ, hx⟩ := hlast x
          exact ⟨σ, hx.bind rfl⟩
      | cons y rest =>
          obtain ⟨τ, hrest⟩ := ih fun z hz => h z (by
            rw [List.dropLast_cons_cons]
            exact List.mem_cons_of_mem _ hz)
          have hdivider : Yields (Render.write mode.divider) st (Trace.write mode.divider) st := rfl
          have hx : Yields (part x) st (alone x) st := h x (by simp)
          exact ⟨τ, hx.bind (hdivider.bind hrest)⟩

end Mode

namespace Walk

/-- **The text of an element, key or value by itself**, both flags clear in front of it. -/
def apart (s : Scene) (n : Nat) (mode : Mode) (f : Frame) (child : NodeId) : Trace Unit :=
  (part s (walk s n) mode child).run' (f.state false)

/-- The text of an entry: its key and its value, each by itself. -/
def entryApart (s : Scene) (n : Nat) (mode : Mode) (f : Frame) (e : Entry) : Trace Unit := do
  apart s n mode f e.key
  Trace.write ":"
  apart s n mode f e.value

/-- **The text of a field by itself.** -/
def fieldApart (s : Scene) (n : Nat) (mode : Mode) (f : Frame) (fd : Field) : Trace Unit :=
  (field s (walk s n) mode fd).run' (f.state false)

section Apart

variable {s : Scene} {n : Nat} {types details : Bool} {f : Frame} {st : RenderState}

/-- For a part the flag is set whatever it was. -/
theorem part_yields_apart (child : NodeId) (hst : st.setting = (f, false)) :
    ∃ σ, σ.setting = (f, false) ∧ Yields (part s (walk s n) (.compact types details) child) st
      (apart s n (.compact types details) f child) σ := by
  have hsame : part s (walk s n) (.compact types details) child st =
      part s (walk s n) (.compact types details) child (f.state false) := by
    have hset : { st with skipType := true } = { f.state false with skipType := true } := by
      cases st
      simp only [RenderState.setting, RenderState.frame, Prod.mk.injEq] at hst
      obtain ⟨rfl, rfl⟩ := hst
      rfl
    change nested s (walk s n) (.compact types details) child { st with skipType := true } =
      nested s (walk s n) (.compact types details) child { f.state false with skipType := true }
    rw [hset]
  have happart : apart s n (.compact types details) f child =
      (part s (walk s n) (.compact types details) child).run' st := by
    simp only [apart, StateT.run', hsame]
  rw [happart]
  refine Yields.of_final hst fun σ hσ => ?_
  exact ((part_tells (walk_leaves_iff s n types details child)) st σ hσ).1.trans hst

theorem elements_yields_apart (q : Sequence) (hst : st.setting = (f, false)) :
    ∃ σ, σ.setting = (f, false) ∧
      Yields (elements s (walk s n) (.compact types details) q) st
        (Mode.row (.compact types details) (apart s n (.compact types details) f) q.items) σ :=
  Mode.list_yields_within (C := fun st => st.setting = (f, false))
    (fun child _ h => part_yields_apart child h) q.items hst

theorem entry_yields_apart (e : Entry) (hst : st.setting = (f, false)) :
    ∃ σ, σ.setting = (f, false) ∧ Yields (entry s (walk s n) (.compact types details) e) st
      (entryApart s n (.compact types details) f e) σ := by
  obtain ⟨σ, hσ, hkey⟩ : ∃ σ, σ.setting = (f, false) ∧ Yields _ st
      (apart s n (.compact types details) f e.key) σ := part_yields_apart e.key hst
  obtain ⟨τ, hτ, hvalue⟩ := part_yields_apart e.value hσ
  have hmark : Yields (Mode.keyMark (.compact types details)) σ (Trace.write ":") σ := rfl
  exact ⟨τ, hτ, hkey.bind (hmark.bind hvalue)⟩

theorem entries_yields_apart (m : Nat) (es : List Entry) (hst : st.setting = (f, false)) :
    ∃ σ, σ.setting = (f, false) ∧
      Yields (entries s (keyTexts s m) (walk s n) (.compact types details) es) st
        (do
          let ordered ← order s m f es
          Mode.row (.compact types details) (entryApart s n (.compact types details) f) ordered)
        σ := by
  have hlist (ordered : List Entry) : ∃ σ, σ.setting = (f, false) ∧
      Yields
        (Mode.list (.compact types details) (entry s (walk s n) (.compact types details)) ordered)
        st
        (Mode.row (.compact types details) (entryApart s n (.compact types details) f) ordered)
        σ :=
    Mode.list_yields_within (C := fun st => st.setting = (f, false))
      (fun e _ h => entry_yields_apart e h) ordered hst
  have hframe : st.frame = f := congrArg Prod.fst hst
  have hhook : (f.state false).hookAllowed s = st.hookAllowed s := by
    rw [← hframe]
    rfl
  have hheld : st.held = f.held := congrArg Frame.held hframe
  unfold entries arranged order
  split
  · rw [hhook, ← hheld]
    obtain ⟨σ, hσ, hyields⟩ := Yields.lift_bind
      (t := KeyOrder.sort s (keyTexts s m st.held) (st.hookAllowed s) es) hst
      fun ordered _ => hlist ordered
    refine ⟨σ, hσ, ?_⟩
    rw [Yields, bind_assoc, run_get_bind]
    exact hyields
  · rw [Trace.pure_bind, pure_bind]
    exact hlist es

/-- A field by itself, from the state in which the fields of a record start. -/
theorem field_yields_apart (fd : Field) :
    ∃ σ, Yields (field s (walk s n) (.compact types details) fd) (f.state false)
      (fieldApart s n (.compact types details) f fd) σ := by
  obtain ⟨σ, -, hyields⟩ := Yields.of_final (C := fun _ => True) trivial fun _ _ => trivial
  exact ⟨σ, hyields⟩

/-- A field that does not leave the flag set gives back the state in which it started. -/
theorem field_yields_back {fd : Field} (h : ¬Leaves s (f.within fd) false fd.value) :
    Yields (field s (walk s n) (.compact types details) fd) (f.state false)
      (fieldApart s n (.compact types details) f fd) (f.state false) := by
  refine Yields.of_back fun σ hσ => ?_
  obtain ⟨hsetting, hflag⟩ := field_tells (walk_leaves_iff s n types details fd.value) _ σ hσ
  have hclear : σ.skipType = false := by
    rw [Bool.eq_false_iff, ne_eq, hflag]
    exact h
  rw [Frame.eq_state (congrArg Prod.fst hsetting) hclear, show σ.skipIndent = false from
    congrArg Prod.snd hsetting]
  rfl

end Apart

/-! ### Texts without types -/

/-- **The accord of two compact texts without types**: the same effects from states with the same
frame. -/
def untyped : Accord :=
  .sameEffects (fun a b => a.frame = b.frame) (fun _ _ => False) (fun h => h)
    (fun h hchange => hchange _ _ h) (fun h => h) fun h => h

/-- **Without types the flags have no effect.** -/
theorem untyped_fits (s : Scene) (details : Bool) :
    untyped.Fits s (.compact false details) (.compact false details) where
  ornament h := by
    cases h with
    | header n =>
        refine Accord.Meets.get_bind fun st₁ st₂ _ => ?_
        simp only [Bool.and_false, Bool.false_eq_true, if_false]
        exact Accord.Meets.setSkipType _
    | invalid => exact Accord.Meets.write _
    | text t => exact Accord.Meets.write _
    | divider => exact Accord.Meets.write _
    | terminator => exact Accord.Meets.write _
    | label name =>
        exact Accord.Meets.ite (fun _ => Accord.Meets.write _) fun _ => Accord.Meets.pure _
    | keyMark => exact Accord.Meets.write _
    | beginPart => exact Accord.Meets.setSkipType _
    | beginNested shape =>
        exact Accord.Meets.ite (fun _ => Accord.Meets.setSkipType _) fun _ => Accord.Meets.pure _
    | chainHeader chain link =>
        refine Accord.Meets.get_bind fun st₁ st₂ _ => ?_
        simp only [Bool.false_and, Bool.false_eq_true, if_false]
        refine Accord.Meets.bind (Accord.Meets.write _) fun _ => ?_
        exact Accord.Meets.ite (fun _ => Accord.Meets.write _) fun _ => Accord.Meets.pure _
    | endingMark ending => exact Accord.Meets.write _
    | chainFooter => exact Accord.Meets.pure _
  nest h := by
    rcases h with h | hinside
    · exact h.elim
    · have hdepth (up : Nat → Nat) : untyped.Meets
          (modify fun st => { st with depth := up st.depth } : Render PUnit)
          (modify fun st => { st with depth := up st.depth }) := by
        refine Accord.Meets.modify fun x y hxy => ?_
        simp only [RenderState.frame, Frame.mk.injEq] at hxy ⊢
        exact ⟨hxy.1, by rw [hxy.2.1], hxy.2.2⟩
      refine Accord.Meets.bind (Accord.Meets.write _) fun _ => ?_
      refine Accord.Meets.get_bind fun st₁ st₂ hnear => ?_
      have hsame : st₁.depth = st₂.depth := congrArg Frame.depth hnear
      rw [hsame]
      refine Accord.Meets.ite (fun _ => ?_) fun _ => ?_
      · refine Accord.Meets.bind (Accord.Meets.step rfl) fun _ => ?_
        exact Accord.Meets.bind (Accord.Meets.write _) fun _ => Accord.Meets.write _
      · refine Accord.Meets.bind (Accord.Meets.step rfl) fun _ => ?_
        refine Accord.Meets.bind ?_ fun _ => Accord.Meets.write _
        refine Accord.Meets.bind (hdepth (· + 1)) fun _ => ?_
        exact Accord.Meets.bind hinside fun _ => hdepth (· - 1)
  elements _ _ h := h
  chain _ h := by
    refine Accord.Meets.bind ?_ fun walked =>
      Accord.Meets.ite (fun _ => h) fun _ => Accord.Meets.pure _
    simp only [Mode.beginChain]
    split
    · refine Accord.Meets.get_bind fun st₁ st₂ _ => ?_
      simp only [Bool.not_false, Bool.true_or, if_true]
      refine Accord.Meets.bind (Accord.Meets.setSkipType _) fun _ => ?_
      refine Accord.Meets.bind (Accord.Meets.step rfl) fun _ => ?_
      exact Accord.Meets.bind (Accord.Meets.write _) fun _ => Accord.Meets.pure _
    · exact Accord.Meets.pure _

theorem walk_untyped (s : Scene) (n : Nat) (details : Bool) (id : NodeId) :
    untyped.Meets (walk s n (.compact false details) id)
      (walk s n (.compact false details) id) := by
  induction n generalizing id with
  | zero => exact Accord.Meets.stalled
  | succ n ih =>
      exact (untyped_fits s details).level_meets ih
        (fun held key => Accord.Linked.refl (keyTexts_stepless s n held key)) id

/-- Two runs with the same effects that end together. -/
theorem yields_of_untyped {m : Render Unit} (h : untyped.Meets m m) {f : Frame} {st : RenderState}
    (hst : st.frame = f) (hkeeps : ∀ σ, (m st).result = some ((), σ) → σ.frame = st.frame) :
    ∃ σ, σ.frame = f ∧ Yields m st (m.run' (f.state false)) σ := by
  have hnear : st.frame = (f.state false).frame := hst
  rcases h st (f.state false) hnear with hexcused | ⟨heffects, hrel⟩
  · exact hexcused.elim
  · have hst' : m st = ⟨(m (f.state false)).effects, (m st).result⟩ := by rw [← heffects]
    cases hr' : (m (f.state false)).result with
    | none =>
        rw [hr'] at hrel
        have hr : (m st).result = none := by
          generalize (m st).result = r at hrel
          cases hrel with
          | none => rfl
        refine ⟨st, hst, ?_⟩
        rw [Yields, Trace.bind_of_none (by rw [run'_result, hr']; rfl), run'_effects, hst', hr]
    | some p =>
        rw [hr'] at hrel
        obtain ⟨σ, hr⟩ : ∃ σ, (m st).result = some ((), σ) := by
          generalize (m st).result = r at hrel
          cases hrel with
          | @some q _ _ => exact ⟨q.2, rfl⟩
        refine ⟨σ, (hkeeps σ hr).trans hst, ?_⟩
        rw [Yields, Trace.bind_of_some (by rw [run'_result, hr']; rfl), run'_effects, hst', hr]
        simp

theorem field_yields_untyped {s : Scene} {n : Nat} {details : Bool} {f : Frame} {st : RenderState}
    (fd : Field) (hst : st.frame = f) :
    ∃ σ, σ.frame = f ∧ Yields (field s (walk s n) (.compact false details) fd) st
      (fieldApart s n (.compact false details) f fd) σ := by
  refine yields_of_untyped
    ((untyped_fits s details).field_meets (walk_untyped s n details) fd) hst ?_
  intro σ hσ
  have htells := field_tells (walk_leaves_iff s n false details fd.value) st σ hσ
  exact congrArg Prod.fst htells.1

/-! ### Children of containers -/

/-- **Which children leave the type flag set, and what that means for their siblings.**  A child
gives back all of the state but the flag, and leaves the flag set if and only if it is one of those
that do, where a holder clears the flag in front of it.  Elements of sequences and keys and values
of maps are shown as they are by themselves, whatever the flag.  So are the fields of a record, from
the state in which they start, if none but the last leaves the flag set; and without types they
always are. -/
theorem compact_child_leaves_type_flag_iff (s : Scene) (n : Nat) (types details : Bool) :
    (∀ child st σ,
      (nested s (walk s n) (.compact types details) child st).result = some ((), σ) →
      σ.setting = st.setting ∧ (σ.skipType = true ↔
        Leaves s st.frame (st.skipType && !(s.graph.shape child).isHolder) child)) ∧
    (∀ q f st, st.setting = (f, false) → ∃ σ,
      Yields (elements s (walk s n) (.compact types details) q) st
        (Mode.row (.compact types details) (apart s n (.compact types details) f) q.items) σ) ∧
    (∀ m es f st, st.setting = (f, false) → ∃ σ,
      Yields (entries s (keyTexts s m) (walk s n) (.compact types details) es) st
        (do
          let ordered ← order s m f es
          Mode.row (.compact types details) (entryApart s n (.compact types details) f) ordered)
        σ) ∧
    (∀ fds f, (∀ fd ∈ fds.dropLast, ¬Leaves s (f.within fd) false fd.value) → ∃ σ,
      Yields (Mode.list (.compact types details) (field s (walk s n) (.compact types details)) fds)
        (f.state false)
        (Mode.row (.compact types details) (fieldApart s n (.compact types details) f) fds) σ) ∧
    (types = false → ∀ fds f st, st.frame = f → ∃ σ,
      Yields (Mode.list (.compact types details) (field s (walk s n) (.compact types details)) fds)
        st (Mode.row (.compact types details) (fieldApart s n (.compact types details) f) fds)
        σ) := by
  refine ⟨?_, ?_, ?_, ?_, ?_⟩
  · intro child
    exact nested_tells (walk_leaves_iff s n types details child)
  · intro q f st hst
    obtain ⟨σ, -, hyields⟩ := elements_yields_apart q hst
    exact ⟨σ, hyields⟩
  · intro m es f st hst
    obtain ⟨σ, -, hyields⟩ := entries_yields_apart m es hst
    exact ⟨σ, hyields⟩
  · intro fds f h
    exact Mode.list_yields_init (fun fd hfd => field_yields_back (h fd hfd)) field_yields_apart
  · rintro rfl fds f st hst
    obtain ⟨σ, -, hyields⟩ := Mode.list_yields_within (C := fun st => st.frame = f)
      (fun fd _ h => field_yields_untyped fd h) fds hst
    exact ⟨σ, hyields⟩

/-- A record of an array with an invalid element and a number. -/
def blemish : Scene where
  graph := ⟨#[
    { shape := .record [⟨"list", 1, .exported⟩, ⟨"size", 3, .exported⟩], typeName := "Pair" },
    { shape := .array (.ofItems [2]), typeName := "List" },
    { shape := .invalid, typeName := "Hole" },
    { shape := .int 5 64, typeName := "Size" }]⟩

/-- The array leaves the flag set, and the number goes without its type, which by itself it has. -/
theorem blemish_loses_type :
    Leaves blemish ⟨[], 1, false, []⟩ false 1 ∧
      (fieldApart blemish 4 (.compact true false) ⟨[], 1, false, []⟩ ⟨"size", 3, .exported⟩).text =
        "size:(Size)5" ∧
      (blemish.present (.compact true false) 0).text =
        "(Pair)\x7blist:(List)[<invalid>] size:5\x7d" := by
  obtain ⟨hchild, -⟩ := compact_child_leaves_type_flag_iff blemish 4 true false
  have hflag := hchild 1 { depth := 1 } { depth := 1, skipType := true } (by decide +kernel)
  exact ⟨hflag.2.1 rfl, by decide +kernel, by decide +kernel⟩

end Walk

end ValueLens
