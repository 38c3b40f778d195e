/-
**All or nothing.**

A run of the program loads the configuration, applies the overrides, loads every document, and only
then prints.  So one fault anywhere keeps it from printing anything: a configuration that does not
load, an indentation that breaks lines after the overrides, or an input that cannot be read or
understood in its format.  Without a fault it prints what each document shows alone, in the order of
the inputs, although the documents are placed in one graph.

What is asked of the inputs is said here of each of them by itself, with the inputs before it known
only by whether they have used up the standard input.  The parsers may be any.

Main definitions:

* `ValueLens.CommandLine.Configured`, `ValueLens.CommandLine.ReadsAs`,
  `ValueLens.CommandLine.Understood` — what a configuration, a text and an input have to be;
* `ValueLens.CommandLine.Fault` — what keeps a run from printing;
* `ValueLens.CommandLine.Action.shown?`, `ValueLens.CommandLine.Printout` — what a document shows
  alone, and what a run prints.

Main results:

* `ValueLens.CommandLine.loadDocuments_cases` — the documents of all inputs, or an input that is not
  understood;
* `ValueLens.CommandLine.printed_eq` — documents together show what each of them shows alone;
* `ValueLens.CommandLine.prints_all_or_nothing` — **a run with a fault prints nothing and fails, and
  any other prints everything.**
-/
import ValueLens.CommandLine.Run
import ValueLens.Proofs.DocumentPlace

set_option relaxedAutoImplicit false
set_option autoImplicit false

namespace ValueLens.CommandLine

/-! ### What is asked of the inputs -/

/-- A text that breaks lines. -/
def BreaksLine (text : String) : Prop := '\n' ∈ text.toList ∨ '\r' ∈ text.toList

/-- **The configuration before the overrides**: the default, or that of a file, whose indentation
must not break lines either. -/
inductive Configured (p : Parsers) (s : Surroundings) : Option String → Config → Prop
  | default : Configured p s none {}
  | file {path text : String} {c : Config} (hfile : s.file path = some text)
      (hparse : p.config text = some c) (hindent : ¬BreaksLine c.indent) :
      Configured p s (some path) c

/-- **The document of a text in a format.**  Where the format is open, the stricter one counts if
it fits at all. -/
inductive ReadsAs (p : Parsers) (text : String) : DocumentFormat → Document → Prop
  | json {v : Json.Value} (h : p.json text = some v) : ReadsAs p text .json (.json v)
  | yaml {v : Yaml.Value} (h : p.yaml text = some v) : ReadsAs p text .yaml (.yaml v)
  | stricter {v : Json.Value} (h : p.json text = some v) : ReadsAs p text .auto (.json v)
  | laxer {v : Yaml.Value} (hnot : p.json text = none) (h : p.yaml text = some v) :
      ReadsAs p text .auto (.yaml v)

/-- The text of a source after others.  The standard input can be read once, and is empty then. -/
def Source.textAfter (s : Surroundings) (before : List Source) : Source → Option String
  | .standardInput => if .standardInput ∈ before then some "" else s.input
  | .file path => s.file path

/-- The document of a source after others, in the format asked for, or else the one that the name
of the source implies. -/
def Source.Gives (p : Parsers) (s : Surroundings) (asked : DocumentFormat)
    (before : List Source) (source : Source) (d : Document) : Prop :=
  ∃ text, source.textAfter s before = some text ∧ ReadsAs p text (source.format asked) d

/-- **The document of one input.** -/
def Understood (p : Parsers) (s : Surroundings) (i : Invocation) (k : Nat) (d : Document) :
    Prop :=
  ∃ source, i.sources[k]? = some source ∧ source.Gives p s i.input (i.sources.take k) d

/-- **What keeps a run from printing.** -/
inductive Fault (p : Parsers) (s : Surroundings) (i : Invocation) : Prop
  /-- The configuration does not load. -/
  | config (h : ∀ base, ¬Configured p s i.configPath base)
  /-- The indentation breaks lines after the overrides. -/
  | options {base : Config} (h : Configured p s i.configPath base)
      (hindent : BreaksLine (i.overrides.apply base).indent)
  /-- An input cannot be read or understood. -/
  | input {k : Nat} (hk : k < i.sources.length) (h : ∀ d, ¬Understood p s i k d)

/-! ### What is printed -/

/-- **What a document shows alone**, in a graph of its own. -/
def Action.shown? (action : Action) (c : Config) (d : Document) : Option String :=
  let (id, g) := d.place.run {}
  let scene : Scene := { graph := g, config := c }
  match action with
  | .dump => (scene.dumpText [id]).result
  | .format types details => (scene.render types details id).result

/-- What is printed of several documents: dumps, which are whole lines, with an empty line between
two of them, or one line for each document. -/
def Action.joined : Action → List String → String
  | .dump, pages => "\n".intercalate pages
  | .format _ _, lines => String.join (lines.map (· ++ "\n"))

/-- **What a run prints**: what the document of each input shows alone, in the order of the
inputs. -/
structure Printout (p : Parsers) (s : Surroundings) (i : Invocation) (text : String) : Prop where
  exists_pages : ∃ base documents pages, Configured p s i.configPath base ∧
    documents.length = i.sources.length ∧
    (∀ k d, documents[k]? = some d → Understood p s i k d) ∧
    List.Forall₂ (fun d page => i.action.shown? (i.overrides.apply base) d = some page) documents
      pages ∧
    text = i.action.joined pages

/-! ### Configurations -/

variable {p : Parsers}

theorem validate_eq_ok_iff {c : Config} : c.validate = .ok () ↔ ¬BreaksLine c.indent := by
  have hany : (c.indent.toList.any fun ch => ch == '\n' || ch == '\r') = true ↔
      BreaksLine c.indent := by
    simp only [BreaksLine, List.any_eq_true, Bool.or_eq_true, beq_iff_eq]
    constructor
    · rintro ⟨ch, hch, rfl | rfl⟩
      · exact Or.inl hch
      · exact Or.inr hch
    · rintro (hch | hch)
      · exact ⟨_, hch, Or.inl rfl⟩
      · exact ⟨_, hch, Or.inr rfl⟩
  rw [← hany]
  unfold Config.validate
  split
  · next h => simp [h]
  · next h => simp [h]

theorem loadConfig_eq_ok_iff {s : Surroundings} {path : Option String} {c : Config} :
    loadConfig p s path = .ok c ↔ Configured p s path c := by
  constructor
  · intro h
    cases path with
    | none =>
        obtain rfl : {} = c := by simpa [loadConfig] using h
        exact .default
    | some path =>
        simp only [loadConfig] at h
        cases hfile : s.file path with
        | none => simp [hfile] at h
        | some text =>
            simp only [hfile, Config.read] at h
            cases hparse : p.config text with
            | none => simp [hparse, Except.mapError] at h
            | some c' =>
                simp only [hparse] at h
                cases hvalid : c'.validate with
                | error flaw => simp [hvalid, Except.mapError] at h
                | ok u =>
                    obtain rfl : c' = c := by simpa [hvalid, Except.mapError] using h
                    exact .file hfile hparse (validate_eq_ok_iff.1 hvalid)
  · intro h
    cases h with
    | default => rfl
    | file hfile hparse hindent =>
        simp only [loadConfig, hfile, Config.read, hparse, validate_eq_ok_iff.2 hindent]
        rfl

theorem Configured.unique {s : Surroundings} {path : Option String} {c c' : Config}
    (h : Configured p s path c) (h' : Configured p s path c') : c = c' := by
  rw [← loadConfig_eq_ok_iff] at h h'
  exact Except.ok.inj (h.symm.trans h')

theorem effectiveConfig_cases (o : Overrides) (base : Config) :
    (BreaksLine (o.apply base).indent ∧ ∃ abort, effectiveConfig o base = .error abort) ∨
      (¬BreaksLine (o.apply base).indent ∧ effectiveConfig o base = .ok (o.apply base)) := by
  unfold effectiveConfig
  cases hvalid : (o.apply base).validate with
  | ok u => exact Or.inr ⟨validate_eq_ok_iff.1 hvalid, rfl⟩
  | error flaw =>
      refine Or.inl ⟨?_, _, rfl⟩
      by_contra hindent
      rw [validate_eq_ok_iff.2 hindent] at hvalid
      cases hvalid

/-! ### Documents -/

theorem parse_eq_ok_iff {format : DocumentFormat} {text : String} {d : Document} :
    Document.parse p format text = .ok d ↔ ReadsAs p text format d := by
  constructor
  · intro h
    cases format with
    | json =>
        cases hjson : p.json text with
        | none => simp [Document.parse, hjson] at h
        | some v =>
            obtain rfl : .json v = d := by simpa [Document.parse, hjson] using h
            exact .json hjson
    | yaml =>
        cases hyaml : p.yaml text with
        | none => simp [Document.parse, hyaml] at h
        | some v =>
            obtain rfl : .yaml v = d := by simpa [Document.parse, hyaml] using h
            exact .yaml hyaml
    | auto =>
        cases hjson : p.json text with
        | some v =>
            obtain rfl : .json v = d := by simpa [Document.parse, hjson] using h
            exact .stricter hjson
        | none =>
            cases hyaml : p.yaml text with
            | none => simp [Document.parse, hjson, hyaml] at h
            | some v =>
                obtain rfl : .yaml v = d := by simpa [Document.parse, hjson, hyaml] using h
                exact .laxer hjson hyaml
  · intro h
    cases h with
    | json h => simp [Document.parse, h]
    | yaml h => simp [Document.parse, h]
    | stricter h => simp [Document.parse, h]
    | laxer hnot h => simp [Document.parse, hnot, h]

theorem loadDocument_eq_ok_iff {s : Surroundings} {asked : DocumentFormat} {before : List Source}
    {source : Source} {d : Document} :
    loadDocument p asked source (source.textAfter s before) = .ok d ↔
      source.Gives p s asked before d := by
  unfold Source.Gives
  cases source.textAfter s before with
  | none => simp [loadDocument]
  | some text =>
      simp only [loadDocument, Option.some.injEq, exists_eq_left', ← parse_eq_ok_iff]
      cases Document.parse p (source.format asked) text with
      | ok d' => simp [Except.mapError]
      | error cause => simp [Except.mapError]

/-- The surroundings after some sources were read. -/
def Surroundings.after (s : Surroundings) (before : List Source) : Surroundings :=
  if .standardInput ∈ before then { s with input := some "" } else s

/-- What was read before matters only for the standard input. -/
theorem readSource_after (s : Surroundings) (before : List Source) (source : Source) :
    readSource (s.after before) source =
      (source.textAfter s before, s.after (before ++ [source])) := by
  unfold Surroundings.after
  cases source with
  | standardInput =>
      by_cases hbefore : .standardInput ∈ before
      · simp [readSource, Source.textAfter, hbefore]
      · simp [readSource, Source.textAfter, hbefore]
  | file path =>
      by_cases hbefore : .standardInput ∈ before
      · simp [readSource, Source.textAfter, hbefore]
      · simp [readSource, Source.textAfter, hbefore]

/-- **The documents of all sources, or one that gives none.** -/
theorem loadDocuments_cases (p : Parsers) (s : Surroundings) (asked : DocumentFormat)
    (before sources : List Source) :
    (∃ ds, loadDocuments p asked (s.after before) sources = .ok ds ∧ ds.length = sources.length ∧
      ∀ (k : Nat) d, ds[k]? = some d → ∃ source : Source, sources[k]? = some source ∧
        source.Gives p s asked (before ++ sources.take k) d) ∨
    ∃ abort, loadDocuments p asked (s.after before) sources = .error abort ∧
      ∃ (k : Nat) (source : Source), sources[k]? = some source ∧
        ∀ d, ¬source.Gives p s asked (before ++ sources.take k) d := by
  induction sources generalizing before with
  | nil => exact Or.inl ⟨[], rfl, rfl, by simp⟩
  | cons source sources ih =>
      have hload : loadDocuments p asked (s.after before) (source :: sources) = (do
          let d ← loadDocument p asked source (source.textAfter s before)
          let ds ← loadDocuments p asked (s.after (before ++ [source])) sources
          pure (d :: ds)) := by
        rw [loadDocuments, readSource_after]
      rw [hload]
      cases hfirst : loadDocument p asked source (source.textAfter s before) with
      | error abort =>
          refine Or.inr ⟨abort, rfl, 0, source, rfl, fun d hgives => ?_⟩
          rw [List.take_zero, List.append_nil] at hgives
          rw [loadDocument_eq_ok_iff.2 hgives] at hfirst
          cases hfirst
      | ok d =>
          rcases ih (before ++ [source]) with ⟨ds, hrest, hlength, hall⟩ |
            ⟨abort, hrest, k, bad, hbad, hnone⟩
          · refine Or.inl ⟨d :: ds, by rw [hrest]; rfl, by simp [hlength], ?_⟩
            intro k d' hd'
            cases k with
            | zero =>
                obtain rfl : d = d' := by simpa using hd'
                exact ⟨source, rfl, by simpa using loadDocument_eq_ok_iff.1 hfirst⟩
            | succ k =>
                obtain ⟨source', hsource', hgives⟩ := hall k d' (by simpa using hd')
                exact ⟨source', by simpa using hsource', by simpa using hgives⟩
          · refine Or.inr ⟨abort, by rw [hrest]; rfl, k + 1, bad, by simpa using hbad, ?_⟩
            intro d' hgives
            exact hnone d' (by simpa using hgives)

/-! ### Printing -/

/-- The dump of values that come to an end. -/
theorem dump_text_eq {s : Scene} {ids : List NodeId}
    (h : ∀ id ∈ ids, (s.present .dump id).result.isSome = true) :
    (s.dump ids).text = "\n".intercalate (ids.map fun id => (s.present .dump id).text ++ "\n") := by
  have hstep {α : Type} {id : NodeId} (hid : (s.present .dump id).result.isSome = true)
      (rest : Trace α) : (s.present .dump id >>= fun _ => rest).text =
        (s.present .dump id).text ++ rest.text := by
    obtain ⟨u, hu⟩ := Option.isSome_iff_exists.1 hid
    rw [Trace.bind_of_some hu]
    simp [Trace.text]
  have hline {α : Type} (t : String) (rest : Trace α) :
      (Trace.write t >>= fun _ => rest).text = t ++ rest.text := by
    rw [Trace.bind_of_some rfl]
    simp [Trace.text, Trace.write, Trace.emit, Effect.text?]
  induction ids with
  | nil => rfl
  | cons id ids ih =>
      have hid := h id (by simp)
      cases ids with
      | nil =>
          rw [Scene.dump, hstep hid]
          simp [Trace.text, Trace.write, Trace.emit, Effect.text?]
      | cons next ids =>
          rw [Scene.dump, hstep hid, hline, hline, ih fun id' h' => h id' (by simp [h'])]
          simp only [List.map_cons, String.intercalate_cons_cons, String.append_assoc]

/-- What is printed for one of the values of a scene. -/
def Action.page (s : Scene) (id : NodeId) : Action → String
  | .dump => (s.present .dump id).text ++ "\n"
  | .format types details => (s.render types details id).result.getD ""

/-- **A document shows alone what it shows among others.** -/
theorem shown?_of_placedAt {d : Document} {g : Graph} {id : NodeId} (h : d.PlacedAt g id)
    (action : Action) (c : Config) :
    action.shown? c d = some (action.page { graph := g, config := c } id) := by
  let s : Scene := { graph := g, config := c }
  let alone : Scene := { graph := (d.place {}).2, config := c }
  have hplaced : d.PlacedAt alone.graph (d.place {}).1 :=
    d.placedAt_place Graph.stacked_empty
  have hlinked (mode : Mode) :
      Likeness.output.Linked Eq (alone.present mode (d.place {}).1) (s.present mode id) ∧
        (alone.present mode (d.place {}).1).result.isSome = true :=
    hplaced.present_linked (s := alone) h mode
  cases action with
  | dump =>
      obtain ⟨halike, hend⟩ := hlinked .dump
      obtain ⟨u, hu⟩ := Option.isSome_iff_exists.1 hend
      have htext := (Likeness.output_eq halike).1
      have hdump : alone.dump [(d.place {}).1] =
          ⟨(alone.present .dump (d.place {}).1).effects ++ [.write "\n"], some ()⟩ :=
        Trace.bind_of_some hu _
      change (alone.dumpText [(d.place {}).1]).result = some ((s.present .dump id).text ++ "\n")
      rw [← htext, Scene.dumpText, hdump]
      simp [Trace.captured, Trace.text, Effect.text?]
  | format types details =>
      obtain ⟨halike, hend⟩ := hlinked (.compact types details)
      have hrender : alone.render types details (d.place {}).1 = s.render types details id :=
        Likeness.captured_eq_of_output halike
      have hsome : (alone.render types details (d.place {}).1).result.isSome = true := by
        simpa [Scene.render, Trace.captured] using hend
      obtain ⟨line, hline⟩ := Option.isSome_iff_exists.1 hsome
      change (alone.render types details (d.place {}).1).result =
        some ((s.render types details id).result.getD "")
      rw [← hrender, hline]
      rfl

/-- **Documents together print what each of them shows alone.** -/
theorem exists_pages_printed (action : Action) (c : Config) (ds : List Document) :
    ∃ pages, List.Forall₂ (fun d page => action.shown? c d = some page) ds pages ∧
      printed action c ds = action.joined pages := by
  obtain ⟨-, hall⟩ := Document.placedAt_mapM ds Graph.stacked_empty
  generalize hplace : (ds.mapM Document.place).run {} = placed at hall
  obtain ⟨ids, g⟩ := placed
  let s : Scene := { graph := g, config := c }
  refine ⟨ids.map (action.page s), ?_, ?_⟩
  · rw [List.forall₂_map_right_iff]
    exact hall.imp fun d id hid => shown?_of_placedAt hid action c
  · cases action with
    | dump =>
        have hends : ∀ id ∈ ids, (s.present .dump id).result.isSome = true := by
          intro id hid
          obtain ⟨d, hd⟩ := exists_of_mem_forall₂ hall.flip hid
          change d.PlacedAt s.graph id at hd
          exact (hd.present_linked (s := s) hd .dump).2
        simp only [printed, hplace]
        exact dump_text_eq hends
    | format types details =>
        simp only [printed, hplace, Action.joined, List.map_map]
        rfl

/-! ### Runs -/

/-- What was loaded leaves no room for a fault. -/
theorem not_fault {s : Surroundings} {i : Invocation} {base : Config} {ds : List Document}
    (hbase : Configured p s i.configPath base)
    (hindent : ¬BreaksLine (i.overrides.apply base).indent)
    (hlength : ds.length = i.sources.length)
    (hall : ∀ k d, ds[k]? = some d → Understood p s i k d) : ¬Fault p s i := by
  rintro (hnone | ⟨hother, hbreaks⟩ | @⟨k, hk, hnone⟩)
  · exact hnone base hbase
  · rw [hother.unique hbase] at hbreaks
    exact hindent hbreaks
  · have hk : k < ds.length := hlength ▸ hk
    exact hnone ds[k] (hall k ds[k] (List.getElem?_eq_getElem hk))

/-- **A run comes to a fault and fails, or to a printout.** -/
theorem run_cases (p : Parsers) (s : Surroundings) (i : Invocation) :
    (Fault p s i ∧ ∃ abort, i.run p s = .error abort) ∨
      ¬Fault p s i ∧ ∃ text, i.run p s = .ok text ∧ Printout p s i text := by
  unfold Invocation.run
  cases hconfig : loadConfig p s i.configPath with
  | error abort =>
      refine Or.inl ⟨.config fun base hbase => ?_, abort, rfl⟩
      rw [loadConfig_eq_ok_iff.2 hbase] at hconfig
      cases hconfig
  | ok base =>
      have hbase := loadConfig_eq_ok_iff.1 hconfig
      rcases effectiveConfig_cases i.overrides base with ⟨hbreaks, abort, habort⟩ |
        ⟨hindent, heffective⟩
      · exact Or.inl ⟨.options hbase hbreaks, abort, by simp [bind, Except.bind, habort]⟩
      have hafter : s.after [] = s := rfl
      rcases loadDocuments_cases p s i.input [] i.sources with ⟨ds, hload, hlength, hall⟩ |
        ⟨abort, hload, k, source, hsource, hnone⟩
      · rw [hafter] at hload
        obtain ⟨pages, hpages, hprinted⟩ :=
          exists_pages_printed i.action (i.overrides.apply base) ds
        refine Or.inr ⟨not_fault hbase hindent hlength hall,
          printed i.action (i.overrides.apply base) ds, ?_, ?_⟩
        · simp [bind, Except.bind, pure, Except.pure, heffective, hload]
        · exact ⟨base, ds, pages, hbase, hlength, hall, hpages, hprinted⟩
      · rw [hafter] at hload
        refine Or.inl ⟨?_, abort, by simp [bind, Except.bind, heffective, hload]⟩
        obtain ⟨hk, -⟩ := List.getElem?_eq_some_iff.1 hsource
        refine .input hk ?_
        rintro d ⟨source', hsource', hgives⟩
        obtain rfl : source = source' := Option.some.inj (hsource.symm.trans hsource')
        exact hnone d hgives

/-- **A run prints everything or nothing.** -/
theorem prints_all_or_nothing (p : Parsers) (s : Surroundings) (preset : Option String)
    (arguments : List String) (i : Invocation) (h : p.arguments preset arguments = .ok i) :
    (Fault p s i → (respond p s preset arguments).output = "" ∧
      (respond p s preset arguments).code = 1) ∧
    (¬Fault p s i → (respond p s preset arguments).code = 0 ∧
      Printout p s i (respond p s preset arguments).output) := by
  rcases run_cases p s i with ⟨hfault, abort, hrun⟩ | ⟨hfault, text, hrun, hprintout⟩
  · have hrespond : respond p s preset arguments = .failed abort := by
      simp only [respond, h, hrun]
    rw [hrespond]
    exact ⟨fun _ => ⟨rfl, rfl⟩, fun hno => absurd hfault hno⟩
  · have hrespond : respond p s preset arguments = .printed text := by
      simp only [respond, h, hrun]
    rw [hrespond]
    exact ⟨fun hyes => absurd hyes hfault, fun _ => ⟨rfl, hprintout⟩⟩

/-- A file that may be torn off, a configuration, and the standard input. -/
def desk (torn : Bool) : Surroundings where
  file path :=
    if path = "a.json" then some (if torn then "[1" else "[1]")
    else if path = "c" then some "max_depth: 1"
    else none
  input := some "- x"

def deskArguments : List String := ["dump", "--max-depth", "2", "--config", "c", "-", "a.json"]

def deskInvocation : Invocation :=
  { action := .dump
    overrides := { maxDepth := some 2 }
    files := ["-", "a.json"]
    configPath := some "c" }

/-- A torn file keeps also the document before it from being printed. -/
theorem desk_prints_all_or_nothing :
    parsers.arguments none deskArguments = .ok deskInvocation ∧
      (Fault parsers (desk true) deskInvocation ∧
        (respond parsers (desk true) none deskArguments).output = "" ∧
        (respond parsers (desk true) none deskArguments).code = 1) ∧
      ¬Fault parsers (desk false) deskInvocation ∧ Printout parsers (desk false) deskInvocation
        ("(array) (len=1 cap=1) \x7b\n (string) (len=1) \"x\"\n\x7d\n\n" ++
          "(array) (len=1 cap=1) \x7b\n (number) 1\n\x7d\n") := by
  have harguments : parsers.arguments none deskArguments = .ok deskInvocation := by
    decide +kernel
  have hfault : Fault parsers (desk true) deskInvocation := by
    refine .input (k := 1) (by decide) ?_
    rintro d ⟨source, hsource, text, htext, hreads⟩
    obtain rfl : .file "a.json" = source := by
      simpa [deskInvocation, Invocation.sources, Source.ofArgument] using hsource
    obtain rfl : "[1" = text := by simpa [Source.textAfter, desk] using htext
    have hformat : Source.format deskInvocation.input (.file "a.json") = .json := by decide +kernel
    rw [hformat] at hreads
    cases hreads with
    | json h =>
        have hnone : (parsers.json "[1").isNone = true := by decide +kernel
        simp [h] at hnone
  have hwhole : (respond parsers (desk false) none deskArguments).output =
      "(array) (len=1 cap=1) \x7b\n (string) (len=1) \"x\"\n\x7d\n\n" ++
        "(array) (len=1 cap=1) \x7b\n (number) 1\n\x7d\n" := by
    decide +kernel
  obtain ⟨hsilent, -⟩ := prints_all_or_nothing parsers (desk true) none deskArguments _ harguments
  obtain ⟨hfails, hprints⟩ :=
    prints_all_or_nothing parsers (desk false) none deskArguments _ harguments
  have hnone : ¬Fault parsers (desk false) deskInvocation := by
    intro h
    rw [(hfails h).1] at hwhole
    exact absurd hwhole (by decide)
  exact ⟨harguments, ⟨hfault, hsilent hfault⟩, hnone, hwhole ▸ (hprints hnone).2⟩

end ValueLens.CommandLine
