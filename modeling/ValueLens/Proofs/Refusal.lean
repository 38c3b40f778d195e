/-
**A dump is cut at the first refusal.**

A sink may refuse any write, having taken any part of it.  A dump into such a sink is set beside
the dump into a sink that takes everything: the two offer the same texts up to the first one that is
refused, and then the dump is over.  So what the sink took begins the whole text, and what was
logged begins what is logged on the whole.  This holds of every dialogue that is over at its first
refusal; that the dumps are such dialogues is what the walk was followed for.

Main definitions:

* `ValueLens.Sink.feed` — how far a sink goes along with some writes;
* `ValueLens.Sink.Keeps` — a sink that keeps what it took in view;
* `ValueLens.Report.CutFrom` — a dialogue with a sink beside the whole one.

Main results:

* `ValueLens.Dialogue.Carries.cutFrom` — a dialogue that is over at its first refusal is cut there;
* `ValueLens.Sink.Keeps.feed_view` — what a sink took of some writes begins them;
* `ValueLens.Scene.cut_at_first_refusal` — **a dump is cut at the first write that is refused.**
-/
import ValueLens.Proofs.Pouring

set_option relaxedAutoImplicit false
set_option autoImplicit false

namespace ValueLens

variable {σ α : Type}

/-! ### Sinks and writes -/

/-- How far a sink went along with some writes: what it became, the writes that were offered to it,
and whether it took all of them. -/
structure Feeding (σ : Type) where
  state : σ
  offered : List String
  taken : Bool

namespace Sink

/-- **Writes are offered to a sink one after another**, up to and including the first one that it
refuses. -/
def feed (w : Sink σ) : σ → List String → Feeding σ
  | state, [] => ⟨state, [], true⟩
  | state, text :: rest =>
      match w.write state text with
      | (next, true) =>
          let fed := w.feed next rest
          { fed with offered := text :: fed.offered }
      | (next, false) => ⟨next, [text], false⟩

theorem feed_of_taken {w : Sink σ} {state next : σ} {text : String}
    (h : w.write state text = (next, true)) (rest : List String) :
    w.feed state (text :: rest) =
      { w.feed next rest with offered := text :: (w.feed next rest).offered } := by
  rw [feed, h]

theorem feed_of_refused {w : Sink σ} {state next : σ} {text : String}
    (h : w.write state text = (next, false)) (rest : List String) :
    w.feed state (text :: rest) = ⟨next, [text], false⟩ := by
  rw [feed, h]

/-- **A sink that keeps what it took in view**: a write that is taken is added to it, and of a write
that is refused the part that was taken all the same. -/
structure Keeps (w : Sink σ) (view : σ → String) : Prop where
  taken {state next : σ} {text : String} (h : w.write state text = (next, true)) :
    view next = view state ++ text
  refused {state next : σ} {text : String} (h : w.write state text = (next, false)) :
    ∃ part rest, text = part ++ rest ∧ view next = view state ++ part

/-- What a sink took of some writes begins them, and is all of them if it refused none. -/
theorem Keeps.feed_view {w : Sink σ} {view : σ → String} (hw : w.Keeps view) (state : σ)
    (texts : List String) :
    ∃ rest, view state ++ String.join texts = view (w.feed state texts).state ++ rest ∧
      ((w.feed state texts).taken = true → rest = "") := by
  induction texts generalizing state with
  | nil => exact ⟨"", rfl, fun _ => rfl⟩
  | cons text texts ih =>
      rw [String.join_cons]
      rcases hwrite : w.write state text with ⟨next, taken⟩
      cases taken with
      | true =>
          obtain ⟨rest, hrest, hall⟩ := ih next
          rw [feed_of_taken hwrite, ← String.append_assoc, ← hw.taken hwrite]
          exact ⟨rest, hrest, hall⟩
      | false =>
          obtain ⟨part, rest, htext, hview⟩ := hw.refused hwrite
          rw [feed_of_refused hwrite]
          refine ⟨rest ++ String.join texts, ?_, fun h => Bool.noConfusion h⟩
          rw [hview, htext]
          simp only [String.append_assoc]

/-- What fits into a number of bytes begins the characters. -/
theorem exists_fitting_append (room : Nat) (cs : List Char) :
    ∃ rest, cs = fitting room cs ++ rest := by
  induction cs generalizing room with
  | nil => exact ⟨[], rfl⟩
  | cons c cs ih =>
      rw [fitting]
      split
      · obtain ⟨rest, hrest⟩ := ih (room - c.utf8Size)
        exact ⟨rest, by rw [List.cons_append, ← hrest]⟩
      · exact ⟨c :: cs, rfl⟩

theorem limited_keeps (room : Nat) : (limited room).Keeps id where
  taken {state next text} h := by
    dsimp only [limited] at h
    split at h
    · exact (Prod.mk.inj h).1.symm
    · cases (Prod.mk.inj h).2
  refused {state next text} h := by
    dsimp only [limited] at h
    split at h
    · cases (Prod.mk.inj h).2
    · obtain ⟨rest, hrest⟩ := exists_fitting_append (room - state.utf8ByteSize) text.toList
      refine ⟨_, String.ofList rest, ?_, (Prod.mk.inj h).1.symm⟩
      rw [← String.ofList_append, ← hrest, String.ofList_toList]

end Sink

/-! ### Dialogues that are cut -/

/-- **A dialogue with a sink beside the whole one**: the same texts are offered up to the first one
that is refused, and what is logged begins what is logged on the whole. -/
structure Report.CutFrom (w : Sink σ) (start : σ) (whole : Report Unit (Except Interruption α))
    (cut : Report σ (Except Interruption α)) : Prop where
  writes : cut.writes = (w.feed start whole.writes).offered
  sink : cut.sink = (w.feed start whole.writes).state
  result : cut.result =
    if (w.feed start whole.writes).taken then whole.result else .error .refused
  logs : cut.logs <+: whole.logs
  logs_eq : (w.feed start whole.writes).taken = true → cut.logs = whole.logs

namespace Report.CutFrom

variable {w : Sink σ} {state next : σ} {text : String}
  {whole : Report Unit (Except Interruption α)} {cut : Report σ (Except Interruption α)}

/-- A write that is taken in front. -/
theorem taken (hwrite : w.write state text = (next, true)) (h : CutFrom w next whole cut) :
    CutFrom w state { whole with writes := text :: whole.writes }
      { cut with writes := text :: cut.writes } := by
  have hfeed := Sink.feed_of_taken hwrite whole.writes
  constructor
  · rw [hfeed, h.writes]
  · rw [hfeed, h.sink]
  · rw [hfeed, h.result]
  · exact h.logs
  · rw [hfeed]
    exact h.logs_eq

/-- A write that is refused, after which nothing happens. -/
theorem refused (whole : Report Unit (Except Interruption α))
    (hwrite : w.write state text = (next, false)) :
    CutFrom w state { whole with writes := text :: whole.writes }
      ⟨next, [text], [], .error .refused⟩ := by
  have hfeed := Sink.feed_of_refused hwrite whole.writes
  constructor
  · rw [hfeed]
  · rw [hfeed]
  · rw [hfeed]
    rfl
  · exact List.nil_prefix
  · rw [hfeed]
    exact fun h => Bool.noConfusion h

/-- An event in front. -/
theorem log (event : LogEvent) (h : CutFrom w state whole cut) :
    CutFrom w state { whole with logs := event :: whole.logs }
      { cut with logs := event :: cut.logs } where
  writes := h.writes
  sink := h.sink
  result := h.result
  logs := List.cons_prefix_cons.2 ⟨rfl, h.logs⟩
  logs_eq ht := congrArg (event :: ·) (h.logs_eq ht)

end Report.CutFrom

namespace Dialogue.Carries

variable {d : Dialogue (Except Interruption α × RenderState)} {ls : List Letter}
  {r : Option (α × RenderState)}

/-- **A dialogue that is over at its first refusal is cut there.** -/
theorem cutFrom (h : d.Carries ls r) (w : Sink σ) (start : σ) :
    Report.CutFrom w start (d.run .boundless ()).verdict (d.run w start).verdict := by
  induction h generalizing start with
  | ok a st => exact ⟨rfl, rfl, rfl, List.prefix_rfl, fun _ => rfl⟩
  | stalled st => exact ⟨rfl, rfl, rfl, List.prefix_rfl, fun _ => rfl⟩
  | @offer text next ls r hstop hgo ih =>
      rcases hwrite : w.write start text with ⟨state, taken⟩
      have hrun : (Dialogue.offer text next).run w start =
          { (next taken).run w state with
            writes := text :: ((next taken).run w state).writes } := by
        rw [Dialogue.run, hwrite]
      rw [hrun]
      -- the sink decides: either the dialogue goes on as on the whole, or it is over
      cases taken with
      | true => exact (ih state).taken hwrite
      | false =>
          obtain ⟨st, hst⟩ := hstop
          rw [hst]
          exact .refused ((next true).run .boundless ()).verdict hwrite
  | @log event next ls r _ ih => exact (ih start).log event

/-- What is offered, logged and found on the whole. -/
theorem whole (h : d.Carries ls r) :
    ((d.run .boundless ()).writes.flatMap String.toList = ls.filterMap Sum.getLeft?) ∧
      (d.run .boundless ()).logs = ls.filterMap Sum.getRight? ∧
      (d.run .boundless ()).verdict.result = r.elim (.error .stalled) fun p => .ok p.1 := by
  induction h with
  | ok a st => exact ⟨rfl, rfl, rfl⟩
  | stalled st => exact ⟨rfl, rfl, rfl⟩
  | @offer text next ls r _ _ ih =>
      obtain ⟨hwrites, hlogs, hresult⟩ := ih
      refine ⟨?_, ?_, hresult⟩
      · rw [List.filterMap_append, written_spelt, ← hwrites]
        rfl
      · rw [List.filterMap_append, logged_spelt, List.nil_append, ← hlogs]
        rfl
  | @log event next ls r _ ih =>
      obtain ⟨hwrites, hlogs, hresult⟩ := ih
      exact ⟨hwrites, congrArg (event :: ·) hlogs, hresult⟩

end Dialogue.Carries

/-! ### Dumps that are cut -/

namespace Scene

/-- On the whole, a dump into a sink writes and logs what the dump does. -/
theorem dumpInto_boundless (f : Formatting) (s : Scene) (ids : List NodeId) :
    String.join (s.dumpInto f .boundless () ids).writes = (s.dump ids).text ∧
      (s.dumpInto f .boundless () ids).logs = (s.dump ids).logs ∧
      (s.dumpInto f .boundless () ids).result =
        if (s.dump ids).result.isSome then .ok () else .error .stalled := by
  obtain ⟨r, hcarries, hsome⟩ := (Pour.values_pours f s ids).1 {}
  obtain ⟨hwrites, hlogs, hresult⟩ := hcarries.whole
  refine ⟨?_, ?_, ?_⟩
  · rw [← String.toList_inj, String.toList_join, ← (s.dump ids).written_letters]
    exact hwrites
  · rw [← (s.dump ids).logged_letters]
    exact hlogs
  · rw [← hsome]
    refine hresult.trans ?_
    cases r with
    | none => rfl
    | some p => rfl

/-- **A dump is cut at the first write that is refused.**  Whatever sink it goes into, and in
whatever pieces arguments are formatted, the texts that are offered are those of the whole dump up
to and including the first one that the sink refuses; there is an error exactly if the sink refuses
one, what was logged begins what is logged on the whole, and what the sink took begins the whole
text. -/
theorem cut_at_first_refusal (f : Formatting) (s : Scene) (ids : List NodeId) (w : Sink σ)
    (start : σ) {view : σ → String} (hw : w.Keeps view) :
    let whole := s.dumpInto f .boundless () ids
    let cut := s.dumpInto f w start ids
    let fed := w.feed start whole.writes
    (String.join whole.writes = (s.dump ids).text ∧ whole.logs = (s.dump ids).logs ∧
        whole.result = if (s.dump ids).result.isSome then .ok () else .error .stalled) ∧
      (cut.writes = fed.offered ∧ cut.sink = fed.state) ∧
      (cut.result = if fed.taken then whole.result else .error .refused) ∧
      (cut.logs <+: whole.logs ∧ (fed.taken = true → cut.logs = whole.logs)) ∧
      ∃ rest, view start ++ (s.dump ids).text = view cut.sink ++ rest ∧
        (fed.taken = true → rest = "") := by
  intro whole cut fed
  have hwhole := dumpInto_boundless f s ids
  obtain ⟨r, hcarries, -⟩ := (Pour.values_pours f s ids).1 {}
  have hcut : Report.CutFrom w start whole cut := hcarries.cutFrom w start
  refine ⟨hwhole, ⟨hcut.writes, hcut.sink⟩, hcut.result, ⟨hcut.logs, hcut.logs_eq⟩, ?_⟩
  rw [← hwhole.1, hcut.sink]
  exact hw.feed_view start whole.writes

/-- A record whose second field is private and leads to a number that cannot be described. -/
def purse : Scene where
  graph :=
    ⟨#[{ shape := .record [⟨"tag", 1, .exported⟩, ⟨"coin", 2, .internal⟩], typeName := "Purse" },
       { shape := .text "x", typeName := "str" },
       { shape := .pointer 0x10 (some 3), typeName := "Box" },
       { shape := .int 7 32, typeName := "i32", capability := .panicked "lost" }]⟩

/-- The sink is full within the address, before the number is asked. -/
theorem purse_cut :
    let cut := purse.dumpInto .whole (Sink.limited 60) "" [0]
    cut.sink = "(Purse) \x7b\n tag: (str) (len=1) \"x\",\n coin: (*i32)(0x000000000" ∧
      cut.writes.getLast? = some "0000000000000010" ∧ cut.logs = [] ∧
      (purse.dump [0]).logs.length = 1 ∧ cut.result = .error .refused ∧
      ∃ rest, (purse.dump [0]).text = cut.sink ++ rest := by
  refine ⟨by decide +kernel, by decide +kernel, by decide +kernel, by decide +kernel, by rfl, ?_⟩
  obtain ⟨-, -, -, -, rest, hrest, -⟩ :=
    cut_at_first_refusal .whole purse [0] (Sink.limited 60) "" (Sink.limited_keeps 60)
  exact ⟨rest, by simpa using hrest⟩

end Scene

end ValueLens
