/-
**What a dump pours out.**

A dump into a sink offers one text after another.  Here every part of it is set beside the part of
the render that it pours out: as long as the sink takes what it is offered, the same characters are
written and the same events are logged, in the same order, and the same comes out; and after the
first text that is refused nothing is offered and nothing is logged any more.  Into how many texts
the characters are cut does not matter for this.

The rule goes through sequences, through the loops that write one small text after another, and
through the two places where the state is put right after a part that may have been cut off.

Main definitions:

* `ValueLens.Trace.letters` — what is written and logged, character by character;
* `ValueLens.Dialogue.Carries` — a dialogue that carries letters to a sink and is over at the first
  refusal;
* `ValueLens.Pour.Follows` — a part of a dump that follows a part of a render.

Main results:

* `ValueLens.Pour.Follows.bind`, `ValueLens.Pour.restoring_follows` — **the rule goes through
  sequences**, and past what was cut off;
* `ValueLens.Pour.walk_follows` — **the walk of a dump into a sink follows the walk of a dump**;
* `ValueLens.Pour.values_pours` — so does the dump of some values.
-/
import ValueLens.Proofs.Kinship
import ValueLens.Render.Pour

set_option relaxedAutoImplicit false
set_option autoImplicit false

namespace ValueLens

open Render

/-! ### Letters -/

/-- A character that is written, or an event that is logged. -/
abbrev Letter := Char ⊕ LogEvent

/-- The letters of a text. -/
def spelt (text : String) : List Letter := text.toList.map .inl

theorem spelt_append (a b : String) : spelt (a ++ b) = spelt a ++ spelt b := by
  simp [spelt]

/-- The letters of an effect; a step has none. -/
def Effect.letters : Effect → List Letter
  | .write t => spelt t
  | .log e => [.inr e]
  | .step _ => []

/-- **What is written and logged**, character by character. -/
def Trace.letters {α : Type} (t : Trace α) : List Letter := t.effects.flatMap Effect.letters

/-! ### What letters tell -/

theorem written_spelt (text : String) : (spelt text).filterMap Sum.getLeft? = text.toList := by
  simp [spelt, List.filterMap_map, Function.comp_def]

theorem logged_spelt (text : String) : (spelt text).filterMap Sum.getRight? = [] := by
  simp [spelt, List.filterMap_map, Function.comp_def]

theorem Trace.written_letters {α : Type} (t : Trace α) :
    t.letters.filterMap Sum.getLeft? = t.text.toList := by
  rw [Trace.letters, Trace.text, String.toList_join]
  induction t.effects with
  | nil => rfl
  | cons e es ih =>
      cases e with
      | write text =>
          rw [List.flatMap_cons, List.filterMap_append, ih]
          exact congrArg (· ++ _) (written_spelt text)
      | log event => exact ih
      | step e => exact ih

theorem Trace.logged_letters {α : Type} (t : Trace α) :
    t.letters.filterMap Sum.getRight? = t.logs := by
  rw [Trace.letters, Trace.logs]
  induction t.effects with
  | nil => rfl
  | cons e es ih =>
      cases e with
      | write text =>
          rw [List.flatMap_cons, List.filterMap_append, ih]
          exact congrArg (· ++ _) (logged_spelt text)
      | log event => exact congrArg (event :: ·) ih
      | step e => exact ih

/-! ### Dialogues -/

variable {α β γ : Type}

/-- **A dialogue that carries letters to a sink**: if all is taken, these are written and logged,
and the result comes out; at the first refusal it is over. -/
inductive Dialogue.Carries : Dialogue (Except Interruption α × RenderState) → List Letter →
    Option (α × RenderState) → Prop
  | ok (a : α) (st : RenderState) : Carries (.done (.ok a, st)) [] (some (a, st))
  | stalled (st : RenderState) : Carries (.done (.error .stalled, st)) [] none
  | offer {text : String} {next : Bool → Dialogue (Except Interruption α × RenderState)}
      {ls : List Letter} {r : Option (α × RenderState)}
      (hstop : ∃ st, next false = .done (.error .refused, st)) (hgo : Carries (next true) ls r) :
      Carries (.offer text next) (spelt text ++ ls) r
  | log {event : LogEvent} {next : Dialogue (Except Interruption α × RenderState)}
      {ls : List Letter} {r : Option (α × RenderState)} (h : Carries next ls r) :
      Carries (.log event next) (.inr event :: ls) r

namespace Pour

/-- What a computation does after another. -/
def after (k : α → Pour β) : Except Interruption α × RenderState →
    Dialogue (Except Interruption β × RenderState)
  | (.ok a, st) => k a st
  | (.error e, st) => .done (.error e, st)

theorem run_bind (m : Pour α) (k : α → Pour β) (st : RenderState) :
    (m >>= k) st = (m st).bind (after k) := by
  change Dialogue.bind (m st) _ = _
  congr 1
  funext ⟨outcome, σ⟩
  cases outcome with
  | ok a => rfl
  | error e => rfl

end Pour

namespace Dialogue.Carries

open Pour

variable {d : Dialogue (Except Interruption α × RenderState)} {ls ls' : List Letter}

/-- What comes after a dialogue, if it leaves a refusal as it is. -/
protected theorem bind {r : Option (α × RenderState)} {r' : Option (β × RenderState)}
    {k : Except Interruption α × RenderState → Dialogue (Except Interruption β × RenderState)}
    (h : d.Carries ls r)
    (hrefused : ∀ st, ∃ st', k (.error .refused, st) = .done (.error .refused, st'))
    (hok : ∀ a st, r = some (a, st) → (k (.ok a, st)).Carries ls' r')
    (hstalled : r = none → ∀ st, (k (.error .stalled, st)).Carries ls' r') :
    (d.bind k).Carries (ls ++ ls') r' := by
  induction h with
  | ok a st => exact hok a st rfl
  | stalled st => exact hstalled rfl st
  | offer hstop _ ih =>
      obtain ⟨st, hst⟩ := hstop
      rw [List.append_assoc]
      refine .offer ?_ (ih hok hstalled)
      rw [hst]
      exact hrefused st
  | log _ ih => exact .log (ih hok hstalled)

/-- What follows a result. -/
theorem bind_some {a : α} {st : RenderState} (h : d.Carries ls (some (a, st))) {k : α → Pour β}
    {r : Option (β × RenderState)} (hk : (k a st).Carries ls' r) :
    (d.bind (after k)).Carries (ls ++ ls') r := by
  refine h.bind (fun st => ⟨st, rfl⟩) ?_ fun hnone => nomatch hnone
  rintro _ _ ⟨⟩
  exact hk

/-- Nothing follows where there is no result. -/
theorem bind_none (h : d.Carries ls none) (k : α → Pour β) :
    (d.bind (after k)).Carries ls none := by
  rw [← List.append_nil ls]
  exact h.bind (fun st => ⟨st, rfl⟩) (fun _ _ hsome => nomatch hsome) fun _ st => .stalled st

end Dialogue.Carries

namespace Pour

/-! ### Following a render -/

/-- **A part of a dump that follows a part of a render**, whose result it needs only in the form
`f` gives it. -/
def Follows (f : α → β) (m : Pour β) (t : Render α) : Prop :=
  ∀ st, (m st).Carries (t st).letters ((t st).result.map fun p => (f p.1, p.2))

/-- A part of a dump that writes a text and changes nothing. -/
def Spells (m : Pour Unit) (text : String) : Prop :=
  ∀ st, (m st).Carries (spelt text) (some ((), st))

namespace Follows

variable {f : α → β}

protected theorem pure (a : α) : Follows f (pure (f a)) (pure a) := fun st => .ok (f a) st

/-- **The rule goes through sequences.** -/
protected theorem bind {δ : Type} {g : γ → δ} {m : Pour β} {t : Render α} {k : β → Pour δ}
    {l : α → Render γ} (hm : Follows f m t) (hk : ∀ a, Follows g (k (f a)) (l a)) :
    Follows g (m >>= k) (t >>= l) := by
  intro st
  have hfirst := hm st
  rw [run_bind]
  cases hr : (t st).result with
  | none =>
      rw [hr] at hfirst
      rw [run_bind_of_none hr]
      exact hfirst.bind_none k
  | some p =>
      rw [hr] at hfirst
      rw [run_bind_of_some hr, Trace.letters, List.flatMap_append]
      exact hfirst.bind_some (hk p.1 p.2)

/-- A part without a result of interest in front of others. -/
theorem seq {δ : Type} {g : γ → δ} {m : Pour Unit} {t : Render Unit} {k : Unit → Pour δ}
    {l : Unit → Render γ} (hm : Follows id m t) (hk : Follows g (k ()) (l ())) :
    Follows g (m >>= k) (t >>= l) :=
  hm.bind fun _ => hk

theorem get_bind {δ : Type} {g : γ → δ} {k : RenderState → Pour δ} {l : RenderState → Render γ}
    (hk : ∀ st, Follows g (k st) (l st)) : Follows g (get >>= k) (get >>= l) :=
  fun st => hk st st

theorem modify (change : RenderState → RenderState) :
    Follows id (modify change : Pour PUnit) (modify change : Render PUnit) :=
  fun st => Dialogue.Carries.ok PUnit.unit (change st)

theorem ite {c : Prop} [Decidable c] {m n : Pour β} {t u : Render α} (hm : Follows f m t)
    (hn : Follows f n u) : Follows f (if c then m else n) (if c then t else u) := by
  split
  · exact hm
  · exact hn

/-- The steps of the walk are not poured out. -/
theorem step_seq {m : Pour β} (e : Step) {l : Unit → Render α} (h : Follows f m (l ())) :
    Follows f m (Render.step e >>= l) :=
  fun st => h st

theorem set (σ : RenderState) : Follows id (set σ : Pour PUnit) (set σ : Render PUnit) :=
  fun _ => Dialogue.Carries.ok PUnit.unit σ

/-- What a dump has nothing to do for. -/
theorem pure_seq {m : Pour β} (c : γ) {l : γ → Render α} (h : Follows f m (l c)) :
    Follows f m (pure c >>= l) :=
  fun st => h st

theorem stalled : Follows f (throw .stalled : Pour β) (Render.stalled : Render α) :=
  fun st => .stalled st

theorem log (level : Level) (message : String) :
    Follows id (log level message) (Render.log level message) :=
  fun st => .log (.ok () st)

end Follows

namespace Spells

variable {m k : Pour Unit} {a b : String}

theorem follows (h : Spells m a) : Follows id m (Render.write a) := by
  intro st
  have hletters : (Render.write a st).letters = spelt a := by
    simp [Trace.letters, Effect.letters]
  rw [hletters]
  exact h st

theorem write (text : String) : Spells (write text) text := by
  intro st
  have hletters : spelt text = spelt text ++ [] := (List.append_nil _).symm
  rw [hletters]
  exact .offer ⟨st, rfl⟩ (.ok () st)

theorem nothing : Spells (pure ()) "" := fun st => .ok () st

theorem append (hm : Spells m a) (hk : Spells k b) : Spells (m >>= fun _ => k) (a ++ b) := by
  intro st
  rw [run_bind, spelt_append]
  exact (hm st).bind_some (hk st)

theorem of_eq (h : Spells m a) (hab : a = b) : Spells m b := hab ▸ h

theorem repeated (hm : Spells m a) (n : Nat) :
    Spells (repeated m n) (String.join (List.replicate n a)) := by
  induction n with
  | zero => exact .nothing
  | succ n ih =>
      rw [List.replicate_succ, String.join_cons]
      exact hm.append ih

theorem writes (texts : List String) : Spells (writes texts) (String.join texts) := by
  induction texts with
  | nil => exact .nothing
  | cons text texts ih =>
      rw [String.join_cons]
      exact (Spells.write text).append ih

/-- A formatted argument is written, in whatever pieces. -/
theorem print (f : Formatting) (text : String) : Spells (print f text) text :=
  (Spells.writes (f.pieces text)).of_eq (f.join_pieces text)

end Spells

theorem write_follows (text : String) : Follows id (write text) (Render.write text) :=
  (Spells.write text).follows

/-! ### Parts that write nothing -/

theorem notes_carries (events : List LogEvent) (st : RenderState) :
    ((Dialogue.notes events : Pour Unit) st).Carries (events.map .inr) (some ((), st)) := by
  induction events with
  | nil => exact .ok () st
  | cons event events ih => exact .log ih

/-- Effects that are not writes have the letters of their events. -/
theorem letters_of_silent {es : List Effect} (h : es.filterMap Effect.text? = []) :
    es.flatMap Effect.letters = (es.filterMap Effect.event?).map .inr := by
  induction es with
  | nil => rfl
  | cons e es ih =>
      cases e with
      | write t => simp [Effect.text?] at h
      | log event =>
          rw [List.flatMap_cons, ih (by simpa [Effect.text?] using h)]
          rfl
      | step e =>
          rw [List.flatMap_cons, ih (by simpa [Effect.text?] using h)]
          rfl

theorem quietly_carries {t : Trace α} (h : t.effects.filterMap Effect.text? = [])
    (st : RenderState) :
    (quietly t st).Carries t.letters (t.result.map fun a => (a, st)) := by
  have hletters : t.letters = t.logs.map .inr ++ [] := by
    rw [List.append_nil]
    exact letters_of_silent h
  rw [quietly, run_bind, hletters]
  refine (notes_carries t.logs st).bind_some ?_
  cases t.result with
  | none => exact .stalled st
  | some a => exact .ok a st

/-- A computation that writes nothing is followed by its events. -/
theorem quietly_follows {t : Trace α} (h : t.effects.filterMap Effect.text? = []) :
    Follows id (quietly t) (t : Render α) := by
  intro st
  have hquiet := quietly_carries h st
  cases hr : t.result with
  | none =>
      rw [hr] at hquiet
      rw [run_lift_of_none hr]
      exact hquiet
  | some a =>
      rw [hr] at hquiet
      rw [run_lift_of_some hr]
      exact hquiet

/-- What only logs writes nothing. -/
theorem silent_of_logs {t : Trace α} (h : ∀ e ∈ t.effects, e.event?.isSome) :
    t.effects.filterMap Effect.text? = [] :=
  List.filterMap_eq_nil_iff.2 fun e he => Effect.text?_eq_none (h e he)

theorem silently_follows {m : Render α} (h : Likeness.Silent m) : Follows id (silently m) m := by
  intro st
  have hquiet := quietly_carries (h st) st
  change ((quietly (m st) >>= fun p => _ : Pour α) st).Carries _ _
  rw [run_bind]
  cases hr : (m st).result with
  | none =>
      rw [hr] at hquiet
      exact hquiet.bind_none _
  | some p =>
      rw [hr] at hquiet
      rw [← List.append_nil (m st).letters]
      exact hquiet.bind_some (.ok p.1 p.2)

/-! ### Parts after which the state is put right -/

/-- **The rule goes past what was cut off**: the state is put right, and nothing else happens. -/
theorem restoring_follows {m : Pour Unit} {t : Render Unit} (h : Follows id m t)
    (restore : RenderState → RenderState) :
    Follows id (restoring m restore) (t >>= fun _ => modify restore) := by
  intro st
  have hm := h st
  -- a refusal stays a refusal: only the state beside it is put right
  have hrefused (σ : RenderState) : ∃ σ', (Dialogue.done (.error .refused, restore σ) :
      Dialogue (Except Interruption Unit × RenderState)) = .done (.error .refused, σ') :=
    ⟨restore σ, rfl⟩
  cases hr : (t st).result with
  | none =>
      rw [hr] at hm
      rw [run_bind_of_none hr, ← List.append_nil (Trace.letters _)]
      exact hm.bind hrefused (fun _ _ hsome => nomatch hsome) fun _ σ => .stalled (restore σ)
  | some p =>
      rw [hr] at hm
      rw [run_bind_of_some hr, Trace.letters, List.flatMap_append]
      refine hm.bind hrefused ?_ fun hnone => nomatch hnone
      rintro _ _ ⟨⟩
      exact .ok () (restore p.2)

/-! ### Headers -/

theorem indent_follows (c : Config) : Follows id (indent c) (Mode.indent c) := by
  refine .get_bind fun st => .ite (.set _) ?_
  exact ((Spells.write c.indent).repeated st.depth).follows

theorem lengths_spells (f : Formatting) (c : Config) (length capacity : Nat) (always : Bool) :
    Spells (lengths f c length capacity always) (Mode.lengths c length capacity always) := by
  unfold lengths Mode.lengths
  dsimp only
  -- what is left of the writes after each of the two choices
  have hclose : Spells (write ") ") ") " := .write _
  have hcapacity := (Spells.write "cap=").append
    ((Spells.print f (Numeral.decimal capacity)).append hclose)
  cases length != 0 || always with
  | false =>
      cases !c.disableCapacities && capacity != 0 with
      | false => exact .nothing
      | true => exact ((Spells.write "(").append hcapacity).of_eq (by simp [String.append_assoc])
  | true =>
      have hlength {m : Pour Unit} {rest : String} (h : Spells m rest) :=
        (Spells.write "(").append ((Spells.write "len=").append
          ((Spells.print f (Numeral.decimal length)).append h))
      cases !c.disableCapacities && capacity != 0 with
      | false => exact (hlength hclose).of_eq (by simp [String.append_assoc])
      | true =>
          refine (hlength ((Spells.write " ").append hcapacity)).of_eq ?_
          simp [String.append_assoc, String.intercalate_cons_cons]

theorem lengthsOf_spells (f : Formatting) (c : Config) (shape : Shape) :
    Spells (lengthsOf f c shape) (Mode.lengthsOf c shape) := by
  cases shape with
  | array q => exact lengths_spells f c _ _ _
  | text t => exact lengths_spells f c _ _ _
  | slice q =>
      cases q with
      | none => exact .nothing
      | some q => exact lengths_spells f c _ _ _
  | map es =>
      cases es with
      | none => exact .nothing
      | some es => exact lengths_spells f c _ _ _
  | _ => exact .nothing

theorem tag_spells (a b c : String) : Spells (writes [a, b, c]) (a ++ b ++ c) :=
  (Spells.writes [a, b, c]).of_eq (by simp [String.join])

theorem header_follows (f : Formatting) (s : Scene) (n : Node) :
    Follows id (header f s n) (Mode.header s n .dump) := by
  have hrest : Follows id
      (modify (fun st => { st with skipType := false }) >>= fun _ => lengthsOf f s.config n.shape)
      (setSkipType false >>= fun _ => Render.write (Mode.lengthsOf s.config n.shape)) :=
    .seq (.modify _) (lengthsOf_spells f s.config n.shape).follows
  refine .get_bind fun st => .ite ?_ hrest
  exact .seq (indent_follows s.config) (.seq (tag_spells _ _ _).follows hrest)

theorem invalid_follows (c : Config) : Follows id (invalid c) (Mode.invalid c .dump) := by
  have hrest : Follows id
      (modify (fun st => { st with skipType := false }) >>= fun _ => write Mode.invalidMark)
      (setSkipType false >>= fun _ => Render.write Mode.invalidMark) :=
    .seq (.modify _) (write_follows _)
  refine .get_bind fun st => .ite ?_ hrest
  exact .seq (indent_follows c) hrest

/-- A text that answers for a value. -/
theorem answer_follows {m : Pour Unit} {text : String} (h : Spells m text) (answer : Answer)
    (standsIn : Bool) :
    Follows Prod.snd (m >>= fun _ => pure standsIn)
      ((do Trace.write text; pure (answer, standsIn) : Trace (Answer × Bool)) :
        Render (Answer × Bool)) :=
  .seq (l := fun _ => pure (answer, standsIn)) h.follows (.pure (answer, standsIn))

/-- Asking a value: a dump needs to know only whether the answer stands in for the value. -/
theorem consult_follows (c : Config) (n : Node) :
    Follows Prod.snd (consult c n) (n.consult c : Render (Answer × Bool)) := by
  have hdescription (answer : Answer) (t : String) :
      Follows Prod.snd (consult.description c t)
        (Node.consult.description c answer t : Render (Answer × Bool)) := by
    unfold consult.description Node.consult.description
    cases c.continueOnMethod with
    | true => exact answer_follows (tag_spells "(" t ") ") answer false
    | false => exact answer_follows (.write t) answer true
  rw [Node.consult, liftM_bind]
  refine (quietly_follows (silent_of_logs n.describe_quiet.1)).bind fun answer => ?_
  cases answer with
  | absent => exact .pure (Answer.absent, false)
  | panicked message => exact answer_follows (tag_spells "(PANIC=" message ")") .panicked true
  | text t => exact hdescription .text t
  | error t => exact hdescription .error t

/-! ### Scalars -/

theorem int_spells (f : Formatting) (v : Int64) : Spells (int f v) (Scalar.int 10 v) := by
  have hdigits := Spells.print f (Numeral.write 10 v.toInt.natAbs)
  unfold int Scalar.int Numeral.writeInt
  dsimp only
  split
  · exact (Spells.write "-").append hdigits
  · exact hdigits

theorem complex_spells (re im : Double) (width : FloatWidth) :
    Spells (complex re im width) (Scalar.complex re im width) := by
  have hend := (Spells.write (Scalar.float im width)).append (.write "i)")
  have hwhole {m : Pour Unit} {rest : String} (h : Spells m rest) :=
    (Spells.write "(").append ((Spells.write (Scalar.float re width)).append h)
  unfold complex Scalar.complex
  dsimp only
  split
  · exact (hwhole ((Spells.write "+").append hend)).of_eq (by simp [String.append_assoc])
  · exact (hwhole hend).of_eq (by simp [String.append_assoc])

theorem address_spells (f : Formatting) (a : Address) :
    Spells (address f a) (Scalar.address Scalar.addressWidth a) := by
  unfold address Scalar.address
  split
  · exact .write _
  · exact (Spells.write "0x").append (.print f _)

/-! ### Containers -/

theorem deeper_follows {m : Pour Unit} {t : Render Unit} (h : Follows id m t) :
    Follows id (deeper m) (Mode.deeper t) :=
  .seq (.modify _) (.seq h (.modify _))

theorem nest_follows (s : Scene) (node : NodeId) (bracket : Mode.Bracket) {m : Pour Unit}
    {t : Render Unit} (h : Follows id m t) :
    Follows id (nest s m) (Mode.nest s node bracket t .dump) := by
  refine .get_bind fun st => .ite ?_ ?_
  · exact .seq (.log _ _) (.step_seq _ (write_follows _))
  · refine .step_seq _ (.seq (write_follows _) (.seq (deeper_follows h) ?_))
    exact .seq (indent_follows s.config) (write_follows _)

theorem list_follows {part : α → Pour Unit} {part' : α → Render Unit}
    (h : ∀ x, Follows id (part x) (part' x)) (xs : List α) :
    Follows id (list part xs) (Mode.list .dump part' xs) := by
  induction xs with
  | nil => exact .pure ()
  | cons x xs ih =>
      cases xs with
      | nil =>
          have hlast : Spells (write "\n" >>= fun _ => pure ()) "\n" :=
            ((Spells.write "\n").append .nothing).of_eq String.append_empty
          exact .seq (h x) hlast.follows
      | cons y rest => exact .seq (h x) (.seq (write_follows _) ih)

section Level

variable {s : Scene} {visit : NodeId → Pour Unit} {below : Visit}

theorem part_follows (h : ∀ node, Follows id (visit node) (below .dump node)) (node : NodeId) :
    Follows id (visit node) (Walk.part s below .dump node) :=
  .pure_seq () (.pure_seq () (h node))

theorem elements_follows (h : ∀ node, Follows id (visit node) (below .dump node)) (q : Sequence) :
    Follows id (elements s visit q) (Walk.elements s below .dump q) := by
  unfold elements Walk.elements
  cases Walk.byteView? s q with
  | none => exact list_follows (part_follows h) q.items
  | some bytes => exact .get_bind fun st => write_follows _

theorem entry_follows (h : ∀ node, Follows id (visit node) (below .dump node)) (e : Entry) :
    Follows id (entry visit e) (Walk.entry s below .dump e) := by
  have hmark : Follows id keyMark (Mode.keyMark .dump) := .seq (write_follows _) (.modify _)
  exact .seq (part_follows h e.key) (.seq hmark (part_follows h e.value))

/-- Keys are put in order without a write. -/
theorem arranged_silent {texts : Texts}
    (htexts : ∀ held key, ∀ e ∈ (texts held key).effects, e.event?.isSome) (es : List Entry) :
    Likeness.Silent (Walk.arranged s texts es) := by
  unfold Walk.arranged
  split
  · intro st
    have hsort :=
      KeyOrder.sort_effects (s := s) (fun _ he => he) (htexts st.held) (st.hookAllowed s) es
    rw [Render.run_get_bind]
    cases hr : (KeyOrder.sort s (texts st.held) (st.hookAllowed s) es).result with
    | none =>
        rw [run_lift_of_none hr]
        exact silent_of_logs hsort
    | some ordered =>
        rw [run_lift_of_some hr]
        exact silent_of_logs hsort
  · exact .pure es

theorem entries_follows {texts : Texts}
    (htexts : ∀ held key, ∀ e ∈ (texts held key).effects, e.event?.isSome)
    (h : ∀ node, Follows id (visit node) (below .dump node)) (es : List Entry) :
    Follows id (entries s texts visit es) (Walk.entries s texts below .dump es) := by
  refine (silently_follows (arranged_silent htexts es)).bind fun ordered => ?_
  exact list_follows (entry_follows h) ordered

/-- **The privacy outside a field is restored also if the field was cut off.** -/
theorem field_follows (h : ∀ node, Follows id (visit node) (below .dump node)) (fd : Field) :
    Follows id (field s visit fd) (Walk.field s below .dump fd) := by
  have hlabel : Follows id (label s.config fd.name) (Mode.label s.config fd.name .dump) := by
    have htext : Spells (writes [fd.name, ": "]) (fd.name ++ ": ") :=
      (Spells.writes _).of_eq (by simp [String.join])
    exact .seq (indent_follows s.config) (.seq htext.follows (.modify _))
  refine .seq hlabel (.get_bind fun st => .seq (.modify _) ?_)
  exact restoring_follows (.pure_seq () (h fd.value)) _

theorem structural_follows (f : Formatting) {texts : Texts}
    (htexts : ∀ held key, ∀ e ∈ (texts held key).effects, e.event?.isSome)
    (h : ∀ node, Follows id (visit node) (below .dump node)) (node : NodeId) (shape : Shape) :
    Follows id (structural f s texts visit shape)
      (Walk.structural s texts below .dump node shape) := by
  cases shape with
  | bool b => exact write_follows _
  | int v bits => exact (int_spells f v).follows
  | uint v bits => exact (Spells.print f _).follows
  | float v w => exact write_follows _
  | complex re im w => exact (complex_spells re im w).follows
  | text t => exact (Spells.print f _).follows
  | array q => exact nest_follows s node .sequence (elements_follows h q)
  | slice q =>
      cases q with
      | none => exact write_follows _
      | some q => exact nest_follows s node .sequence (elements_follows h q)
  | map es =>
      cases es with
      | none => exact write_follows _
      | some es => exact nest_follows s node .map (entries_follows htexts h es)
  | record fs => exact nest_follows s node .record (list_follows (field_follows h) fs)
  | holder content => exact write_follows _
  | handle a => exact (address_spells f a).follows
  | guarded a content lock => exact (address_spells f a).follows
  | pointer a target => exact (address_spells f a).follows
  | invalid => exact write_follows _

theorem ask_follows (n : Node) : Follows Prod.snd (ask s n) (Walk.ask s n) :=
  .get_bind fun _ => .ite (consult_follows s.config n) (.pure (Answer.notAsked, false))

theorem value_follows (f : Formatting) {texts : Texts}
    (htexts : ∀ held key, ∀ e ∈ (texts held key).effects, e.event?.isSome)
    (h : ∀ node, Follows id (visit node) (below .dump node)) (node : NodeId) :
    Follows id (value f s texts visit node) (Walk.value s texts below .dump node) := by
  refine .seq (header_follows f s _) ((ask_follows _).bind ?_)
  rintro ⟨answer, standsIn⟩
  exact .step_seq _ (.ite (.pure ()) (structural_follows f htexts h node _))

/-! ### Chains of indirections -/

theorem stars_eq (n : Nat) : Mode.stars n = String.join (List.replicate n "*") := by
  unfold Mode.stars String.pushn
  induction n with
  | zero => rfl
  | succ n ih =>
      rw [List.replicate_succ', String.join_append, Nat.repeat, ih]
      rfl

theorem chainType_spells (chain : Chain) (link : Link) :
    Spells (chainType s.graph chain link) ("(" ++ Mode.chainType s.graph chain link ++ ")") := by
  have hlevels {stars : Nat} {typeName : String} :
      Spells (do write "("; repeated (write "*") stars; writes [typeName, ")"])
        ("(" ++ (Mode.stars stars ++ typeName) ++ ")") := by
    refine ((Spells.write "(").append
      (((Spells.write "*").repeated stars).append (.writes [typeName, ")"]))).of_eq ?_
    simp [stars_eq, String.append_assoc]
  cases link with
  | nil typeName isPointer => exact hlevels
  | cycle typeName isPointer address => exact hlevels
  | unreachable typeName => exact hlevels
  | value node => exact hlevels

theorem arrows_spells (f : Formatting) (as : List Address) :
    Spells (arrows f as) ("->".intercalate (as.map (Scalar.address Scalar.addressWidth))) := by
  induction as with
  | nil => exact .nothing
  | cons a as ih =>
      cases as with
      | nil => exact (address_spells f a).of_eq (by simp)
      | cons b rest =>
          refine ((address_spells f a).append ((Spells.write "->").append ih)).of_eq ?_
          simp [String.append_assoc, String.intercalate_cons_cons]

theorem addresses_spells (f : Formatting) (as : List Address) :
    Spells (addresses f as) (Mode.addresses as) := by
  unfold addresses Mode.addresses
  split
  · exact .nothing
  · exact ((Spells.write "(").append ((arrows_spells f as).append (.write ")"))).of_eq
      (by simp [String.append_assoc])

theorem chainHeader_follows (f : Formatting) (chain : Chain) (link : Link) :
    Follows id (chainHeader f s chain link) (Mode.chainHeader s chain link .dump) := by
  refine .seq (chainType_spells chain link).follows (.ite ?_ (write_follows _))
  exact .seq (addresses_spells f chain.addresses).follows (write_follows _)

/-- **Locks are given back also if what they were held for was cut off.** -/
theorem holding_follows (locks : List Address) {m : Pour Unit} {t : Render Unit}
    (h : Follows id m t) : Follows id (holding locks m) (Render.holding locks t) :=
  .get_bind fun _ => .seq (.modify _) (restoring_follows h _)

theorem finish_follows (f : Formatting) (h : ∀ node, Follows id (visit node) (below .dump node))
    (chain : Chain) (link : Link) :
    Follows id (finish f s visit chain link) (Walk.finish s below .dump chain link) := by
  refine .seq (chainHeader_follows f chain link) ?_
  cases link with
  | nil typeName isPointer => exact .step_seq _ (.seq (write_follows _) (write_follows _))
  | cycle typeName isPointer address =>
      exact .step_seq _ (.seq (write_follows _) (write_follows _))
  | unreachable typeName => exact .step_seq _ (.seq (write_follows _) (write_follows _))
  | value node =>
      exact .step_seq _ (.seq (.modify _)
        (.seq (holding_follows chain.locks (h node)) (write_follows _)))

/-- **A chain is taken off the path also if its end was cut off.** -/
theorem follow_follows (f : Formatting) (h : ∀ node, Follows id (visit node) (below .dump node))
    (node : NodeId) : Follows id (follow f s visit node) (Walk.follow s below .dump node) := by
  refine (silently_follows (Chain.walk_silent s _ {} node)).bind ?_
  rintro ⟨chain, link⟩
  exact restoring_follows (finish_follows f h chain link) _

/-! ### The walk -/

theorem level_follows (f : Formatting) {texts : Texts}
    (htexts : ∀ held key, ∀ e ∈ (texts held key).effects, e.event?.isSome)
    (h : ∀ node, Follows id (visit node) (below .dump node)) (node : NodeId) :
    Follows id (level f s texts visit node) (Walk.level s texts below .dump node) := by
  have hchain (shape : Shape) :
      Follows id (indent s.config >>= fun _ => follow f s visit node)
        (Mode.beginChain s.config shape .dump >>= fun begun =>
          if begun = true then Walk.follow s below .dump node else pure ()) := by
    have hbegin (k : Bool → Render Unit) :
        Mode.beginChain s.config shape .dump >>= k = Mode.indent s.config >>= fun _ => k true := by
      simp [Mode.beginChain]
    rw [hbegin]
    exact .seq (indent_follows s.config) (follow_follows f h node)
  have hother (shape : Shape) := Follows.ite (c := shape.isIndirection s.config = true)
    (hchain shape) (value_follows (s := s) f htexts h node)
  unfold level Walk.level
  cases s.graph.shape node with
  | holder content =>
      cases content with
      | none => exact hother _
      | some content => exact h content
  | invalid => exact .step_seq _ (invalid_follows s.config)
  | _ => exact hother _

end Level

/-- **The walk of a dump into a sink follows the walk of a dump.** -/
theorem walk_follows (f : Formatting) (s : Scene) (n : Nat) (node : NodeId) :
    Follows id (walk f s n node) (Walk.walk s n .dump node) := by
  induction n generalizing node with
  | zero => exact .stalled
  | succ n ih => exact level_follows f (fun _ _ => Trace.captured_logs _) ih node

/-! ### Dumps of values -/

/-- **A part of a dump that follows a trace**, from any state; which state it leaves does not
matter. -/
def Pours (m : Pour Unit) (t : Trace Unit) : Prop :=
  ∀ st, ∃ r, (m st).Carries t.letters r ∧ r.isSome = t.result.isSome

namespace Pours

variable {m k : Pour Unit} {t u : Trace Unit}

protected theorem pure : Pours (pure ()) (pure ()) := fun st => ⟨some ((), st), .ok () st, rfl⟩

theorem write (text : String) : Pours (write text) (Trace.write text) :=
  fun st => ⟨some ((), st), write_follows text st, rfl⟩

/-- What follows a dialogue. -/
theorem after_carries {d : Dialogue (Except Interruption Unit × RenderState)}
    {r : Option (Unit × RenderState)} (hd : d.Carries t.letters r)
    (hr : r.isSome = t.result.isSome) (hk : Pours k u) :
    ∃ r, (d.bind (after fun _ => k)).Carries (t >>= fun _ => u).letters r ∧
      r.isSome = (t >>= fun _ => u).result.isSome := by
  cases ht : t.result with
  | none =>
      obtain rfl : r = none := by simpa [ht] using hr
      rw [Trace.bind_of_none ht]
      exact ⟨none, hd.bind_none _, rfl⟩
  | some _ =>
      obtain ⟨p, rfl⟩ : ∃ p, r = some p := Option.isSome_iff_exists.1 (by simp [hr, ht])
      obtain ⟨r', hrest, hr'⟩ := hk p.2
      rw [Trace.bind_of_some ht, Trace.letters, List.flatMap_append]
      exact ⟨r', hd.bind_some hrest, hr'⟩

theorem seq (hm : Pours m t) (hk : Pours k u) : Pours (m >>= fun _ => k) (t >>= fun _ => u) := by
  intro st
  obtain ⟨r, hd, hr⟩ := hm st
  rw [run_bind]
  exact after_carries hd hr hk

/-- A render from the initial state. -/
theorem start {l : Render Unit} (hm : Follows id m l) (hk : Pours k u) :
    Pours (do set ({} : RenderState); m; k) (fromStart l >>= fun _ => u) := by
  intro st
  have hd : (m {}).Carries (fromStart l).letters ((l {}).result.map fun p => (p.1, p.2)) := by
    rw [Trace.letters, fromStart_effects]
    exact hm {}
  change ∃ r, ((m >>= fun _ => k) {}).Carries _ r ∧ _
  rw [run_bind]
  exact after_carries hd (by simp) hk

end Pours

theorem page_pours (f : Formatting) (s : Scene) (node : NodeId) :
    Pours (page f s node) (do s.present .dump node; Trace.write "\n") :=
  .start (walk_follows f s s.fuel node) (.write "\n")

/-- **A dump into a sink follows the dump of the values.** -/
theorem values_pours (f : Formatting) (s : Scene) (ids : List NodeId) :
    Pours (values f s true ids) (s.dump ids) ∧
      (ids ≠ [] → Pours (values f s false ids) (do Trace.write "\n"; s.dump ids)) := by
  induction ids with
  | nil => exact ⟨.pure, fun h => absurd rfl h⟩
  | cons node rest ih =>
      -- the empty line between two values belongs to the second one
      have hbody : Pours (do page f s node; values f s false rest) (s.dump (node :: rest)) := by
        cases rest with
        | nil =>
            have hlast := (page_pours f s node).seq Pours.pure
            rwa [bind_assoc] at hlast
        | cons next rest =>
            have hmore := (page_pours f s node).seq (ih.2 (List.cons_ne_nil _ _))
            rwa [bind_assoc] at hmore
      exact ⟨hbody, fun _ => (Pours.write "\n").seq hbody⟩

end Pour

end ValueLens
