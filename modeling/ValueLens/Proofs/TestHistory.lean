/-
**A history of tests.**

A tester is asked for one test after another, with any names in any order.  The only thing it
carries from one test to the next is the list of names that ran, and this list is exactly the
history: a name is on it if and only if an earlier call ran it.  So the answer to each call is
settled by three questions: did the name run before, may the tester run it, and does its method do
what is expected of it.

One call is treated first: which report it gives, what it logs, and what it adds to the list.  By
induction the same holds of every call in a list of calls, the list of names being replaced by the
calls that came before.

Main definitions:

* `ValueLens.Tester.Selects`, `ValueLens.Tester.Trial.Passes` — which names a tester may run, and
  when a method does what is expected of it;
* `ValueLens.Tester.RanBefore` — a name ran before a call;
* `ValueLens.Tester.Judged` — the report of one call.

Main results:

* `ValueLens.Tester.test_judged` — **one call**;
* `ValueLens.Tester.runs_each_name_once` — **every call of a history**.
-/
import ValueLens.Tester

set_option relaxedAutoImplicit false
set_option autoImplicit false

namespace ValueLens.Tester

variable {t t' : Tester} {trial : Trial} {r : Report} {trials rest : List Trial}

/-! ### Expectations -/

/-- A text occurs in another exactly if it is a stretch of it. -/
theorem occursIn_iff (part whole : List Char) : occursIn part whole = true ↔ part <:+: whole := by
  induction whole with
  | nil => simp [occursIn]
  | cons c whole ih =>
      rw [occursIn, Bool.or_eq_true, ih, List.isPrefixOf_iff_prefix, List.infix_cons_iff]

/-- **A method does what is expected of it**: with no expectation it succeeds, else it fails with an
error in which the expected text occurs. -/
def Trial.Passes (trial : Trial) : Prop :=
  match trial.error with
  | none => trial.expect = ""
  | some e => trial.expect ≠ "" ∧ trial.expect.toList <:+: e.toList

/-- A test that ran passes or fails, and it explains a failure in two lines. -/
theorem judge_cases (t : Tester) (trial : Trial) :
    trial.Passes ∧ (t.judge trial).1 = .passed ∨
      ¬trial.Passes ∧ (t.judge trial).1 = .failed ∧ (t.judge trial).2.length = 2 := by
  cases herror : trial.error with
  | none =>
      by_cases hexpect : trial.expect = ""
      · simp [judge, Trial.Passes, herror, hexpect]
      · simp [judge, Trial.Passes, herror, hexpect]
  | some e =>
      by_cases hoccurs : trial.expect ≠ "" ∧ trial.expect.toList <:+: e.toList
      · simp [judge, Trial.Passes, herror, hoccurs, occursIn_iff]
      · simp [judge, Trial.Passes, herror, hoccurs, occursIn_iff]

/-! ### One call -/

/-- **A name the tester may run**: any name, or the one that is selected. -/
def Selects (t : Tester) (uid : String) : Prop := ∀ only, t.only = some only → only = uid

/-- What is logged of a report: each line once, and as an error exactly if the test failed. -/
def Report.events (r : Report) : List Effect :=
  r.lines.map fun line => .log ⟨if r.outcome = .failed then .error else .info, "Debug: " ++ line⟩

/-- What is said of a name that ran before. -/
def alreadyRan (uid : String) : String := uid ++ " [FAIL]: tester: test already executed: " ++ uid

/-- **The report of one call**, given whether its name ran before. -/
structure Judged (t : Tester) (ranBefore : Prop) (trial : Trial) (r : Report) : Prop where
  /-- The method runs exactly if the name is selected and is new. -/
  ran_iff : r.ran = true ↔ t.Selects trial.uid ∧ ¬ranBefore
  /-- A name that ran before fails, with one line and without running. -/
  repeated : ranBefore → r = ⟨.failed, [alreadyRan trial.uid], false⟩
  /-- Any other name that is not selected is skipped without a line. -/
  unselected : ¬ranBefore → ¬t.Selects trial.uid → r = ⟨.skipped, [], false⟩
  /-- A method that runs passes exactly if it does what is expected of it. -/
  passed_iff : r.ran = true → (r.outcome = .passed ↔ trial.Passes)
  /-- Else it fails, with two lines. -/
  failed : r.ran = true → ¬trial.Passes → r.outcome = .failed ∧ r.lines.length = 2

/-- Which names are selected is all of the tester that a report depends on. -/
theorem Judged.of_only_eq {ranBefore : Prop} (h : t.Judged ranBefore trial r)
    (honly : t'.only = t.only) : t'.Judged ranBefore trial r := by
  have hselects : t'.Selects trial.uid ↔ t.Selects trial.uid := by simp only [Selects, honly]
  refine ⟨?_, h.repeated, fun hnew hno => h.unselected hnew ?_, h.passed_iff, h.failed⟩
  · rw [hselects]
    exact h.ran_iff
  · rwa [← hselects]

/-- **What a call leaves behind**: the settings stay, and the name of a method that ran is added to
the list. -/
structure Advances (t : Tester) (trial : Trial) (r : Report) (t' : Tester) : Prop where
  only_eq : t'.only = t.only
  exitOnFail_eq : t'.exitOnFail = t.exitOnFail
  mem_executed : ∀ uid, uid ∈ t'.executed ↔ uid ∈ t.executed ∨ r.ran = true ∧ uid = trial.uid

theorem logLines_eq (outcome : Outcome) (lines : List String) (ran : Bool) :
    logLines outcome lines = ⟨Report.events ⟨outcome, lines, ran⟩, some ()⟩ := by
  induction lines with
  | nil => rfl
  | cons line lines ih =>
      rw [logLines, ih]
      rfl

/-- The end of a call: the lines of its report are logged, and it is handed out. -/
theorem logLines_bind (r : Report) (t' : Tester) :
    (logLines r.outcome r.lines >>= fun _ => pure (r, t')) = ⟨r.events, some (r, t')⟩ := by
  rw [logLines_eq r.outcome r.lines r.ran, Trace.bind_of_some rfl]
  simp

theorem any_ne_iff_not_selects (t : Tester) (uid : String) :
    t.only.any (· != uid) = true ↔ ¬t.Selects uid := by
  cases h : t.only with
  | none => simp [Selects, h]
  | some only => simp [Selects, h]

theorem test_of_mem (h : trial.uid ∈ t.executed) :
    t.test trial = ⟨Report.events ⟨.failed, [alreadyRan trial.uid], false⟩,
      some (⟨.failed, [alreadyRan trial.uid], false⟩, t)⟩ := by
  rw [test, if_pos (by simpa using h)]
  exact logLines_bind ⟨.failed, [alreadyRan trial.uid], false⟩ t

theorem test_of_not_selects (hnew : trial.uid ∉ t.executed) (h : ¬t.Selects trial.uid) :
    t.test trial = ⟨Report.events ⟨.skipped, [], false⟩, some (⟨.skipped, [], false⟩, t)⟩ := by
  rw [test, if_neg (by simpa using hnew), if_pos ((t.any_ne_iff_not_selects _).2 h)]
  rfl

theorem test_of_selects (hnew : trial.uid ∉ t.executed) (h : t.Selects trial.uid) :
    t.test trial = ⟨Report.events ⟨(t.judge trial).1, (t.judge trial).2, true⟩,
      some (⟨(t.judge trial).1, (t.judge trial).2, true⟩,
        { t with executed := trial.uid :: t.executed })⟩ := by
  rw [test, if_neg (by simpa using hnew), if_neg fun hany => (t.any_ne_iff_not_selects _).1 hany h]
  exact logLines_bind ⟨(t.judge trial).1, (t.judge trial).2, true⟩ _

/-- **One call** gives one report, logs its lines, and adds a name to the list if it ran. -/
theorem test_judged (t : Tester) (trial : Trial) :
    ∃ r t', t.test trial = ⟨r.events, some (r, t')⟩ ∧
      t.Judged (trial.uid ∈ t.executed) trial r ∧ t.Advances trial r t' := by
  by_cases hbefore : trial.uid ∈ t.executed
  · refine ⟨_, _, test_of_mem hbefore, ?_, rfl, rfl, by simp⟩
    exact {
      ran_iff := by simp [hbefore]
      repeated := fun _ => rfl
      unselected := fun hnew => absurd hbefore hnew
      passed_iff := by simp
      failed := by simp }
  · by_cases hselects : t.Selects trial.uid
    · refine ⟨_, _, test_of_selects hbefore hselects, ?_, rfl, rfl, by simp [or_comm]⟩
      have hjudge := t.judge_cases trial
      exact {
        ran_iff := by simp [hbefore, hselects]
        repeated := fun h => absurd h hbefore
        unselected := fun _ hno => absurd hselects hno
        passed_iff := by
          intro _
          rcases hjudge with ⟨hpasses, houtcome⟩ | ⟨hfails, houtcome, -⟩
          · simp [hpasses, houtcome]
          · simp [hfails, houtcome]
        failed := by
          intro _ hfails
          rcases hjudge with ⟨hpasses, -⟩ | ⟨-, hfailed⟩
          · exact absurd hpasses hfails
          · exact hfailed }
    · refine ⟨_, _, test_of_not_selects hbefore hselects, ?_, rfl, rfl, by simp⟩
      exact {
        ran_iff := by simp [hselects]
        repeated := fun h => absurd h hbefore
        unselected := fun _ _ => rfl
        passed_iff := by simp
        failed := by simp }

/-! ### A list of calls -/

/-- The `k`-th call of a list runs its method. -/
def RunsAt (t : Tester) (trials : List Trial) (k : Nat) : Prop :=
  ∃ m r, (t.run trials).1[k]? = some m ∧ m.result = some r ∧ r.ran = true

/-- **A name ran before the `k`-th call of a list**: before the list, or in an earlier call. -/
def RanBefore (t : Tester) (trials : List Trial) (k : Nat) (uid : String) : Prop :=
  uid ∈ t.executed ∨
    ∃ j < k, ∃ trial, trials[j]? = some trial ∧ trial.uid = uid ∧ t.RunsAt trials j

/-- A tester that does not end the program goes on with the next call. -/
theorem run_cons (hexit : t.exitOnFail = false) {es : List Effect}
    (htest : t.test trial = ⟨es, some (r, t')⟩) (hnext : t.Advances trial r t') :
    t.run (trial :: rest) = (⟨es, some r⟩ :: (t'.run rest).1, (t'.run rest).2) := by
  have hends : t'.ends r = false := by simp [ends, hnext.exitOnFail_eq, hexit]
  simp [run, htest, hends]

section Step

variable {es : List Effect} (hexit : t.exitOnFail = false)
  (htest : t.test trial = ⟨es, some (r, t')⟩) (hnext : t.Advances trial r t')

include hexit htest hnext

theorem runsAt_zero : t.RunsAt (trial :: rest) 0 ↔ r.ran = true := by
  simp [RunsAt, run_cons hexit htest hnext]

theorem runsAt_succ (k : Nat) : t.RunsAt (trial :: rest) (k + 1) ↔ t'.RunsAt rest k := by
  simp [RunsAt, run_cons hexit htest hnext]

/-- **The list of names is the history**: what ran before a later call ran before the rest of the
calls, for the tester that the first call leaves behind. -/
theorem ranBefore_succ (k : Nat) (uid : String) :
    t.RanBefore (trial :: rest) (k + 1) uid ↔ t'.RanBefore rest k uid := by
  unfold RanBefore
  rw [hnext.mem_executed, or_assoc]
  refine or_congr_right ?_
  constructor
  · rintro ⟨j, hj, first, hfirst, rfl, hruns⟩
    cases j with
    | zero =>
        obtain rfl : trial = first := by simpa using hfirst
        exact Or.inl ⟨(runsAt_zero hexit htest hnext).1 hruns, rfl⟩
    | succ j =>
        exact Or.inr ⟨j, by omega, first, by simpa using hfirst, rfl,
          (runsAt_succ hexit htest hnext j).1 hruns⟩
  · rintro (⟨hran, rfl⟩ | ⟨j, hj, later, hlater, rfl, hruns⟩)
    · exact ⟨0, by omega, trial, rfl, rfl, (runsAt_zero hexit htest hnext).2 hran⟩
    · exact ⟨j + 1, by omega, later, by simpa using hlater, rfl,
        (runsAt_succ hexit htest hnext j).2 hruns⟩

end Step

theorem ranBefore_zero (uid : String) : t.RanBefore trials 0 uid ↔ uid ∈ t.executed := by
  simp [RanBefore]

/-- The report of every call, by the calls before it. -/
theorem run_judged (hexit : t.exitOnFail = false) (trials : List Trial) :
    (t.run trials).2 = false ∧ (t.run trials).1.length = trials.length ∧
      ∀ k trial, trials[k]? = some trial →
        ∃ r : Report, (t.run trials).1[k]? = some ⟨r.events, some r⟩ ∧
          t.Judged (t.RanBefore trials k trial.uid) trial r := by
  induction trials generalizing t with
  | nil => exact ⟨rfl, rfl, by simp⟩
  | cons first rest ih =>
      obtain ⟨r, t', htest, hjudged, hnext⟩ := t.test_judged first
      obtain ⟨hend, hlength, hrest⟩ := ih (hnext.exitOnFail_eq.trans hexit)
      rw [run_cons hexit htest hnext]
      refine ⟨hend, by simp [hlength], ?_⟩
      intro k trial hk
      cases k with
      | zero =>
          obtain rfl : first = trial := by simpa using hk
          refine ⟨r, rfl, ?_⟩
          rwa [ranBefore_zero]
      | succ k =>
          -- the names that the first call left behind stand for the history of the later ones
          obtain ⟨r', hr', hjudged'⟩ := hrest k trial (by simpa using hk)
          refine ⟨r', by simpa using hr', ?_⟩
          rw [ranBefore_succ hexit htest hnext]
          exact hjudged'.of_only_eq hnext.only_eq.symm

/-- A call whose method runs is the first to run its name. -/
theorem not_ranBefore_of_runsAt (hexit : t.exitOnFail = false) {k : Nat}
    (hk : trials[k]? = some trial) (hruns : t.RunsAt trials k) :
    ¬t.RanBefore trials k trial.uid := by
  obtain ⟨-, -, hall⟩ := run_judged hexit trials
  obtain ⟨r, hr, hjudged⟩ := hall k trial hk
  obtain ⟨m, r', hm, hresult, hran⟩ := hruns
  obtain rfl : ⟨r.events, some r⟩ = m := Option.some.inj (hr.symm.trans hm)
  obtain rfl : r = r' := Option.some.inj hresult
  exact (hjudged.ran_iff.1 hran).2

/-- **A tester runs each name at most once.**  Unless failures end the program, every call of a
list gets its report: its method runs exactly if its name is selected and ran in no earlier call; a
name that ran before fails at once, any other that is not selected is skipped; a method that runs
passes exactly if it does what is expected of it.  The lines of a report are logged once each, and
no two calls run the same name. -/
theorem runs_each_name_once (t : Tester) (hexit : t.exitOnFail = false) (trials : List Trial) :
    (t.run trials).2 = false ∧ (t.run trials).1.length = trials.length ∧
      (∀ k trial, trials[k]? = some trial →
        ∃ r : Report, (t.run trials).1[k]? = some ⟨r.events, some r⟩ ∧
          t.Judged (t.RanBefore trials k trial.uid) trial r) ∧
      ∀ j k a b, j < k → trials[j]? = some a → trials[k]? = some b →
        t.RunsAt trials j → t.RunsAt trials k → a.uid ≠ b.uid := by
  obtain ⟨hend, hlength, hall⟩ := run_judged hexit trials
  refine ⟨hend, hlength, hall, ?_⟩
  intro j k a b hjk ha hb hruns hagain hsame
  exact not_ranBefore_of_runsAt hexit hb hagain (Or.inr ⟨j, hjk, a, ha, hsame, hruns⟩)

/-- A tester for one name. -/
def bench : Tester := { only := some "disk", exitOnFail := false }

/-- A name that is not selected, one that is, and the same again. -/
def drill : List Trial :=
  [{ uid := "net" }, { uid := "disk", error := some "disk full", expect := "full" },
   { uid := "disk" }]

/-- The first is skipped, the second runs and passes, and the third fails without running. -/
theorem drill_runs_each_name_once :
    bench.exitOnFail = false ∧ (bench.run drill).1.length = 3 ∧
      ¬bench.RunsAt drill 0 ∧ bench.RunsAt drill 1 ∧ ¬bench.RunsAt drill 2 ∧
      (bench.run drill).1[2]? =
        some ⟨[.log ⟨.error, "Debug: disk [FAIL]: tester: test already executed: disk"⟩],
          some ⟨.failed, ["disk [FAIL]: tester: test already executed: disk"], false⟩⟩ := by
  obtain ⟨-, hlength, hall, honce⟩ := runs_each_name_once bench rfl drill
  have hruns : bench.RunsAt drill 1 := ⟨_, _, rfl, rfl, rfl⟩
  obtain ⟨r, hr, hjudged⟩ := hall 2 _ rfl
  have hr' := hjudged.repeated (Or.inr ⟨1, by decide, _, rfl, rfl, hruns⟩)
  refine ⟨rfl, hlength, ?_, hruns, fun h => honce 1 2 _ _ (by decide) rfl rfl hruns h rfl, ?_⟩
  · rintro ⟨m, r, hm, hresult, hran⟩
    obtain rfl := Option.some.inj hm
    obtain rfl := Option.some.inj hresult
    exact absurd hran (by decide)
  · rw [hr, hr']
    rfl

end ValueLens.Tester
