/-
**Siblings in a dump.**

What a child of a container may depend on is its seat: the child itself, the path, the depth and the
privacy it is seen with, and whether it goes on with a line that has begun.  The text of a seat is
the walk from the state with nothing but these in it, both suppression flags clear.

A child gives back the frame of its seat and never leaves the indentation flag set.  It leaves the
type flag set if and only if a chain dangles in it.  If no chain dangles in any child of a
container, the contents of the container are the texts of its seats side by side, and so no child
depends on the siblings before it; on a graph in which no chain ends at a full holder this is always
so.  A chain that dangles does make a difference: the sibling after it goes without its type.

Main definitions:

* `ValueLens.Render.Yields` — a computation does what a trace does, and ends in a certain state;
* `ValueLens.Mode.row` — parts side by side, each by itself;
* `ValueLens.Walk.Seat`, `ValueLens.Walk.alone` — what a child may depend on, and its text;
* `ValueLens.Walk.spread?` — the contents of a container from the texts of its seats.

Main results:

* `ValueLens.Walk.structural_yields` — a container in which no chain dangles;
* `ValueLens.Walk.child_leaves_type_flag_iff_dangling` — **the exact condition, and what follows
  from it**.
-/
import ValueLens.Proofs.Suppression

set_option relaxedAutoImplicit false
set_option autoImplicit false

namespace ValueLens

open Render

/-! ### Parts side by side -/

namespace Render

/-- From a state, a computation does what a trace does, and ends in a certain state. -/
def Yields (m : Render Unit) (st : RenderState) (t : Trace Unit) (σ : RenderState) : Prop :=
  m st = t >>= fun u => pure (u, σ)

namespace Yields

variable {m k : Render Unit} {st σ τ : RenderState} {t u : Trace Unit}

/-- A computation that ends in one state alone. -/
theorem of_back (h : ∀ σ', (m st).result = some ((), σ') → σ' = σ) :
    Yields m st (m.run' st) σ := by
  change m st = (m st >>= fun p => pure p.1) >>= fun u => pure (u, σ)
  rw [Trace.bind_assoc]
  refine (Trace.bind_pure (m st)).symm.trans (Trace.bind_congr ?_)
  rintro ⟨⟨⟩, σ'⟩ hσ'
  rw [Trace.pure_bind, h σ' hσ']

protected theorem bind (hm : Yields m st t σ) (hk : Yields k σ u τ) :
    Yields (do m; k) st (do t; u) τ := by
  change (m st >>= fun p => k p.2) = (t >>= fun _ => u) >>= fun u => pure (u, τ)
  rw [hm, Trace.bind_assoc, Trace.bind_assoc]
  simp only [Trace.pure_bind]
  rw [hk]

end Yields

end Render

namespace Mode

/-- **Parts side by side**, each by itself. -/
def row {α : Type} (mode : Mode) (part : α → Trace Unit) : List α → Trace Unit
  | [] => pure ()
  | [x] => do
      part x
      Trace.write mode.terminator
  | x :: y :: rest => do
      part x
      Trace.write mode.divider
      row mode part (y :: rest)

/-- Parts that all give back the state they found are shown side by side. -/
theorem list_yields {α : Type} (mode : Mode) {part : α → Render Unit} {alone : α → Trace Unit}
    {st : RenderState} {xs : List α} (h : ∀ x ∈ xs, Yields (part x) st (alone x) st) :
    Yields (mode.list part xs) st (mode.row alone xs) st := by
  induction xs with
  | nil => rfl
  | cons x xs ih =>
      cases xs with
      | nil => exact (h x (by simp)).bind rfl
      | cons y rest =>
          have hrest := ih fun z hz => h z (List.mem_cons_of_mem _ hz)
          have hdivider : Yields (Render.write mode.divider) st (Trace.write mode.divider) st := rfl
          exact (h x (by simp)).bind (hdivider.bind hrest)

end Mode

/-- The state with a frame, both flags clear but for a line that has begun. -/
def Frame.state (f : Frame) (continues : Bool) : RenderState :=
  { path := f.path
    depth := f.depth
    skipIndent := continues
    inPrivate := f.inPrivate
    held := f.held }

theorem Frame.eq_state {f : Frame} {σ : RenderState} (hframe : σ.frame = f)
    (htype : σ.skipType = false) : σ = f.state σ.skipIndent := by
  subst hframe
  cases σ
  cases htype
  rfl

namespace Walk

/-- **What a child of a container may depend on.** -/
structure Seat where
  frame : Frame
  /-- Whether the child goes on with a line that has begun. -/
  continues : Bool
  child : NodeId

/-- **The text of a seat.** -/
def alone (s : Scene) (n : Nat) (seat : Seat) : Trace Unit :=
  (walk s n .dump seat.child).run' (seat.frame.state seat.continues)

/-- The seats in a container whose contents have the frame `f`. -/
def seats (f : Frame) : Shape → List Seat
  | .array q => q.items.map fun child => ⟨f, false, child⟩
  | .slice (some q) => q.items.map fun child => ⟨f, false, child⟩
  | .map (some es) => es.flatMap fun e => [⟨f, false, e.key⟩, ⟨f, true, e.value⟩]
  | .record fds => fds.map fun fd => ⟨f.within fd, true, fd.value⟩
  | _ => []

/-- The indentation of a frame. -/
def margin (s : Scene) (f : Frame) : Trace Unit :=
  Trace.write (String.join (List.replicate f.depth s.config.indent))

/-- The elements of a sequence from the texts of their seats, if it is not shown as bytes. -/
def spreadSequence (s : Scene) (n : Nat) (f : Frame) (q : Sequence) : Trace Unit :=
  match byteView? s q with
  | some bytes => Trace.write (HexDump.indented s.config.indent f.depth bytes)
  | none => Mode.row .dump (fun child => alone s n ⟨f, false, child⟩) q.items

/-- **The contents of a container from the texts of its seats**; `texts` are the compact texts of
keys, which decide the order of entries. -/
def spread? (s : Scene) (n : Nat) (texts : Texts) (f : Frame) :
    Shape → Option (Trace Unit)
  | .array q => some (spreadSequence s n f q)
  | .slice (some q) => some (spreadSequence s n f q)
  | .map (some es) => some do
      let ordered ←
        if s.config.sortKeys then KeyOrder.sort s (texts f.held) ((f.state false).hookAllowed s) es
        else pure es
      Mode.row .dump (fun e => do
        alone s n ⟨f, false, e.key⟩
        Trace.write ": "
        alone s n ⟨f, true, e.value⟩) ordered
  | .record fds => some <| Mode.row .dump (fun fd => do
      margin s f
      Trace.write (fd.name ++ ": ")
      alone s n ⟨f.within fd, true, fd.value⟩) fds
  | _ => none

/-- Contents in brackets. -/
def boxed (s : Scene) (f : Frame) (id : NodeId) (contents : Trace Unit) : Trace Unit := do
  Trace.step (.entered id)
  Trace.write "\x7b\n"
  contents
  margin s f
  Trace.write "\x7d"

/-- A chain dangles in the text of a seat. -/
def Seat.Dangling (s : Scene) (n : Nat) (seat : Seat) : Prop :=
  (alone s n seat).result.isSome ∧ Step.Dangles (alone s n seat).steps

section Seats

variable {s : Scene} {n : Nat}

/-- **What a child leaves behind**: the frame of its seat, no indentation flag, and the type flag if
and only if a chain dangles in it. -/
theorem walk_leaves {seat : Seat} {σ : RenderState}
    (h : (walk s n .dump seat.child (seat.frame.state seat.continues)).result = some ((), σ)) :
    σ.frame = seat.frame ∧ σ.skipIndent = false ∧ (σ.skipType = true ↔ seat.Dangling s n) := by
  have hflag : (seat.frame.state seat.continues).skipType = false := rfl
  refine ⟨walk_frame s n .dump seat.child h, ?_, ?_⟩
  · exact dump_skipIndent s n seat.child (by simp [hflag]) h
  · have hsteps : (alone s n seat).steps =
        (walk s n .dump seat.child (seat.frame.state seat.continues)).steps := by
      simp only [Trace.steps, alone, run'_effects]
    have hend : (alone s n seat).result.isSome := by
      rw [alone, run'_result, h]
      rfl
    rw [dump_skipType s n seat.child h, Step.suppression_eq_true_iff, hflag, Seat.Dangling, hsteps]
    simp [hend]

/-- A child in which no chain dangles has the text of its seat and leaves both flags clear. -/
theorem walk_yields {seat : Seat} (h : ¬seat.Dangling s n) :
    Yields (walk s n .dump seat.child) (seat.frame.state seat.continues) (alone s n seat)
      (seat.frame.state false) := by
  refine Yields.of_back ?_
  intro σ hσ
  obtain ⟨hframe, hindent, htype⟩ := walk_leaves hσ
  -- with the frame and both flags known there is nothing left of the state
  have hclear : σ.skipType = false := by
    rw [Bool.eq_false_iff, ne_eq, htype]
    exact h
  rw [Frame.eq_state hframe hclear, hindent]

theorem margin_yields (s : Scene) (f : Frame) :
    Yields (Mode.indent s.config) (f.state false) (margin s f) (f.state false) := rfl

theorem part_yields {f : Frame} {continues : Bool} {child : NodeId}
    (h : ¬Seat.Dangling s n ⟨f, continues, child⟩) :
    Yields (part s (walk s n) .dump child) (f.state continues) (alone s n ⟨f, continues, child⟩)
      (f.state false) :=
  walk_yields h

theorem sequence_yields {f : Frame} {q : Sequence}
    (h : ∀ child ∈ q.items, ¬Seat.Dangling s n ⟨f, false, child⟩) :
    Yields (elements s (walk s n) .dump q) (f.state false) (spreadSequence s n f q)
      (f.state false) := by
  unfold elements spreadSequence
  cases byteView? s q with
  | none => exact Mode.list_yields .dump fun child hchild => part_yields (h child hchild)
  | some bytes => rfl

theorem entry_yields {f : Frame} {e : Entry} (hkey : ¬Seat.Dangling s n ⟨f, false, e.key⟩)
    (hvalue : ¬Seat.Dangling s n ⟨f, true, e.value⟩) :
    Yields (entry s (walk s n) .dump e) (f.state false)
      (do
        alone s n ⟨f, false, e.key⟩
        Trace.write ": "
        alone s n ⟨f, true, e.value⟩) (f.state false) := by
  have hmark : Yields (Mode.keyMark .dump) (f.state false) (Trace.write ": ") (f.state true) := rfl
  exact (part_yields hkey).bind (hmark.bind (part_yields hvalue))

theorem field_yields {f : Frame} {fd : Field}
    (h : ¬Seat.Dangling s n ⟨f.within fd, true, fd.value⟩) :
    Yields (field s (walk s n) .dump fd) (f.state false)
      (do
        margin s f
        Trace.write (fd.name ++ ": ")
        alone s n ⟨f.within fd, true, fd.value⟩) (f.state false) := by
  -- the privacy of the frame is changed around the value and given back after it
  have hvalue : Yields
      (Render.secretly (fd.visibility == .internal) (nested s (walk s n) .dump fd.value))
      (f.state true) (alone s n ⟨f.within fd, true, fd.value⟩) (f.state false) := by
    have hin : Yields
        (modify fun st => { st with inPrivate := f.inPrivate || fd.visibility == .internal })
        (f.state true) (pure ()) ((f.within fd).state true) := rfl
    have hout : Yields (modify fun st => { st with inPrivate := f.inPrivate })
        ((f.within fd).state false) (pure ()) (f.state false) := rfl
    have hall := hin.bind ((walk_yields h).bind hout)
    simp only [pure_bind, bind_pure_unit] at hall
    exact hall
  have hname : Yields (do
      Render.write (fd.name ++ ": ")
      Render.setSkipIndent true) (f.state false) (Trace.write (fd.name ++ ": "))
      (f.state true) := rfl
  have hall := ((margin_yields s f).bind hname).bind hvalue
  rw [Trace.bind_assoc] at hall
  exact hall

theorem entries_yields {texts : Texts} {f : Frame} {es : List Entry}
    (h : ∀ e ∈ es, ¬Seat.Dangling s n ⟨f, false, e.key⟩ ∧ ¬Seat.Dangling s n ⟨f, true, e.value⟩) :
    Yields (entries s texts (walk s n) .dump es) (f.state false)
      (do
        let ordered ←
          if s.config.sortKeys then
            KeyOrder.sort s (texts f.held) ((f.state false).hookAllowed s) es
          else pure es
        Mode.row .dump (fun e => do
          alone s n ⟨f, false, e.key⟩
          Trace.write ": "
          alone s n ⟨f, true, e.value⟩) ordered) (f.state false) := by
  have hlist (ordered : List Entry) (hordered : ∀ e ∈ ordered, e ∈ es) :=
    Mode.list_yields .dump fun e he =>
      entry_yields (h e (hordered e he)).1 (h e (hordered e he)).2
  unfold entries arranged
  split
  · -- the entries that are shown are those of the map, in another order
    change ((KeyOrder.sort s (texts f.held) ((f.state false).hookAllowed s) es >>= fun a =>
      pure (a, f.state false)) >>= fun p =>
        Mode.list .dump (entry s (walk s n) .dump) p.1 p.2) = _
    rw [Trace.bind_assoc, Trace.bind_assoc]
    refine Trace.bind_congr ?_
    intro ordered hordered
    rw [Trace.pure_bind]
    exact hlist ordered fun e he => KeyOrder.mem_of_sort hordered he
  · rw [Trace.pure_bind]
    exact hlist es fun e he => he

theorem nest_yields {f : Frame} {id : NodeId} {bracket : Mode.Bracket} {inside : Render Unit}
    {contents : Trace Unit} (hlimit : s.config.atLimit f.depth = false)
    (h : Yields inside (f.deeper.state false) contents (f.deeper.state false)) :
    Yields (Mode.nest s id bracket inside .dump) (f.state false) (boxed s f id contents)
      (f.state false) := by
  have hdeeper : Yields (Mode.deeper inside) (f.state false) contents (f.state false) := by
    have hin : Yields (modify fun st => { st with depth := st.depth + 1 }) (f.state false) (pure ())
        (f.deeper.state false) := rfl
    have hout : Yields (modify fun st => { st with depth := st.depth - 1 }) (f.deeper.state false)
        (pure ()) (f.state false) := rfl
    have hall := hin.bind (h.bind hout)
    simp only [pure_bind, bind_pure_unit] at hall
    exact hall
  have hopen : Yields (Render.step (.entered id)) (f.state false) (Trace.step (.entered id))
      (f.state false) := rfl
  have hwrite (t : String) : Yields (Render.write t) (f.state false) (Trace.write t)
      (f.state false) := rfl
  have hall := hopen.bind ((hwrite "\x7b\n").bind (hdeeper.bind
    ((margin_yields s f).bind (hwrite "\x7d"))))
  simp only [Yields, Mode.nest]
  rw [run_get_bind, if_neg (by simp [Frame.state, hlimit])]
  exact hall

/-- **A container in which no chain dangles** shows the texts of its seats. -/
theorem structural_yields {texts : Texts} {f : Frame} {id : NodeId} {shape : Shape}
    {contents : Trace Unit} (hlimit : s.config.atLimit f.depth = false)
    (hspread : spread? s n texts f.deeper shape = some contents)
    (h : ∀ seat ∈ seats f.deeper shape, ¬seat.Dangling s n) :
    Yields (structural s texts (walk s n) .dump id shape) (f.state false) (boxed s f id contents)
      (f.state false) := by
  cases shape with
  | array q =>
      obtain rfl := Option.some.inj hspread
      simp only [structural]
      refine nest_yields hlimit (sequence_yields fun child hchild => ?_)
      exact h _ (List.mem_map.2 ⟨child, hchild, rfl⟩)
  | slice q =>
      cases q with
      | none => simp [spread?] at hspread
      | some q =>
          obtain rfl := Option.some.inj hspread
          simp only [structural]
          refine nest_yields hlimit (sequence_yields fun child hchild => ?_)
          exact h _ (List.mem_map.2 ⟨child, hchild, rfl⟩)
  | map es =>
      cases es with
      | none => simp [spread?] at hspread
      | some es =>
          obtain rfl := Option.some.inj hspread
          simp only [structural]
          refine nest_yields hlimit (entries_yields fun e he => ⟨?_, ?_⟩)
          · exact h _ (List.mem_flatMap.2 ⟨e, he, by simp⟩)
          · exact h _ (List.mem_flatMap.2 ⟨e, he, by simp⟩)
  | record fds =>
      obtain rfl := Option.some.inj hspread
      simp only [structural]
      refine nest_yields hlimit (Mode.list_yields .dump fun fd hfd => field_yields ?_)
      exact h _ (List.mem_map.2 ⟨fd, hfd, rfl⟩)
  | _ => simp [spread?] at hspread

end Seats

/-- **A child leaves the type flag set if and only if a chain dangles in it**, and it leaves nothing
else behind; what a chain leads to goes unvisited if and only if it is hollow.  So where no chain
dangles in the seats of a container, the contents of the container are the texts of the seats, which
depend on no sibling; a container starts them with both flags clear unless both were set in front of
it; and no chain dangles where none ends at a full holder. -/
theorem child_leaves_type_flag_iff_dangling (s : Scene) (n : Nat) :
    (∀ (seat : Seat) σ,
      (walk s n .dump seat.child (seat.frame.state seat.continues)).result = some ((), σ) →
      σ.frame = seat.frame ∧ σ.skipIndent = false ∧ (σ.skipType = true ↔ seat.Dangling s n)) ∧
    (∀ id st σ, (walk s n .dump id st).result = some ((), σ) →
      (Step.Unvisited (walk s n .dump id st).steps ↔ Hollow s st.path id)) ∧
    (∀ texts f id shape contents, s.config.atLimit f.depth = false →
      spread? s n texts f.deeper shape = some contents →
      (∀ seat ∈ seats f.deeper shape, ¬seat.Dangling s n) →
      Yields (structural s texts (walk s n) .dump id shape) (f.state false)
        (boxed s f id contents) (f.state false)) ∧
    (∀ id st, (st.skipIndent && st.skipType) = false →
      (Mode.header s (s.graph.node id) .dump st).result = some ((), st.frame.state false)) ∧
    (Flat s → ∀ seat, ¬Seat.Dangling s n seat) := by
  refine ⟨?_, ?_, ?_, ?_, ?_⟩
  · intro seat σ h
    exact walk_leaves h
  · intro id st σ h
    exact unvisited_iff_hollow s n id h
  · intro texts f id shape contents hlimit hspread h
    exact structural_yields hlimit hspread h
  · intro id st hst
    rw [Mode.header_result, hst]
    rfl
  · rintro hflat seat ⟨hend, hdangles⟩
    rw [alone, run'_result, Option.isSome_map] at hend
    obtain ⟨⟨⟨⟩, σ⟩, hσ⟩ := Option.isSome_iff_exists.1 hend
    refine not_dangles_of_flat hflat n seat.child hσ ?_
    simpa only [Trace.steps, alone, run'_effects] using hdangles

/-- An array of a pointer and a number.  The pointer leads through a holder to a holder, which holds
a nil pointer. -/
def trailing : Graph :=
  ⟨#[{ shape := .array (.ofItems [1, 5]), typeName := "Pair" },
     { shape := .pointer 0x10 (some 2), typeName := "Link" },
     { shape := .holder (some 3), typeName := "Outer" },
     { shape := .holder (some 4), typeName := "Inner" },
     { shape := .pointer 0 none, typeName := "Nothing" },
     { shape := .uint 7 8, typeName := "Byte" }]⟩

/-- The number goes without its type, which by itself it has. -/
theorem trailing_loses_type :
    Seat.Dangling ⟨trailing, {}, true⟩ 4 ⟨⟨[], 1, false, []⟩, false, 1⟩ ∧
      (alone ⟨trailing, {}, true⟩ 4 ⟨⟨[], 1, false, []⟩, false, 5⟩).text = " (Byte) 7" ∧
      ((⟨trailing, {}, true⟩ : Scene).dump [0]).text =
        "(Pair) (len=2 cap=2) \x7b\n (*Inner)(0x0000000000000010)( (Nothing)(<nil>)),\n"
          ++ "7\n\x7d\n" := by
  obtain ⟨hchild, -⟩ := child_leaves_type_flag_iff_dangling ⟨trailing, {}, true⟩ 4
  have hflag := hchild ⟨⟨[], 1, false, []⟩, false, 1⟩ { depth := 1, skipType := true } (by decide)
  refine ⟨hflag.2.2.1 rfl, by decide, by decide⟩

end Walk

end ValueLens
