/-
**A small test bench.**

A tester runs tests by name, each at most once.  A test passes if it succeeds and nothing was
expected of it, or if it fails with an error that contains the expected text.  A tester may be
limited to one test, may say more about passed tests, and may end the program at the first failure.

Main definitions:

* `ValueLens.Tester` — the settings and the names of the tests that ran;
* `ValueLens.Tester.test` — one test;
* `ValueLens.Tester.run` — a list of tests.
-/
import ValueLens.Trace

set_option relaxedAutoImplicit false
set_option autoImplicit false

namespace ValueLens

/-- **A test bench.** -/
structure Tester where
  /-- The only test that runs, if one is selected. -/
  only : Option String := none
  /-- Say more about tests that pass. -/
  verbose : Bool := false
  /-- End the program at the first failure. -/
  exitOnFail : Bool := true
  /-- The tests that ran. -/
  executed : List String := []
  deriving DecidableEq, Repr

namespace Tester

/-- How a test ended. -/
inductive Outcome where
  | passed
  | failed
  | skipped
  deriving DecidableEq, Repr

/-- What is known after a test. -/
structure Report where
  outcome : Outcome
  lines : List String
  ran : Bool
  deriving DecidableEq, Repr

/-- A test: its name, the error its method ends with, and the text expected in that error. -/
structure Trial where
  uid : String
  error : Option String := none
  expect : String := ""
  deriving DecidableEq, Repr

/-- Whether a text occurs in another. -/
def occursIn (part whole : List Char) : Bool :=
  match whole with
  | [] => part.isEmpty
  | _ :: rest => part.isPrefixOf whole || occursIn part rest

/-- Judges a test that ran. -/
def judge (t : Tester) (trial : Trial) : Outcome × List String :=
  let failed (result : String) :=
    let expected := if trial.expect.isEmpty then "success" else trial.expect
    (Outcome.failed,
      [trial.uid ++ " [FAIL]: expect: " ++ expected, trial.uid ++ " [FAIL]: result: " ++ result])
  let passed (result : String) :=
    (Outcome.passed, [trial.uid ++ " [OK]" ++ if t.verbose then ": " ++ result else ""])
  match trial.error with
  | none => if trial.expect.isEmpty then passed "succeeded" else failed "success"
  | some e =>
      if !trial.expect.isEmpty && occursIn trial.expect.toList e.toList then passed ("error: " ++ e)
      else failed ("error: " ++ e)

/-- Logs the lines of a report. -/
def logLines (outcome : Outcome) : List String → Trace Unit
  | [] => pure ()
  | line :: rest => do
      Trace.log (if outcome = .failed then .error else .info) ("Debug: " ++ line)
      logLines outcome rest

/-- **One test**: a name that ran before fails, one that is not selected is skipped, and any other
runs. -/
def test (t : Tester) (trial : Trial) : Trace (Report × Tester) := do
  if t.executed.contains trial.uid then
    let lines := [trial.uid ++ " [FAIL]: tester: test already executed: " ++ trial.uid]
    logLines .failed lines
    pure (⟨.failed, lines, false⟩, t)
  else if t.only.any (· != trial.uid) then
    pure (⟨.skipped, [], false⟩, t)
  else
    let (outcome, lines) := t.judge trial
    logLines outcome lines
    pure (⟨outcome, lines, true⟩, { t with executed := trial.uid :: t.executed })

/-- Whether a report ends the program. -/
def ends (t : Tester) (r : Report) : Bool :=
  r.outcome == .failed && t.exitOnFail

/-- **A list of tests**: the traces of the tests before the end, and whether a failure ended the
program. -/
def run (t : Tester) : List Trial → List (Trace Report) × Bool
  | [] => ([], false)
  | trial :: rest =>
      let m := t.test trial
      match m.result with
      | none => ([], false)
      | some (report, t) =>
          if t.ends report then ([], true)
          else
            let (later, ended) := run t rest
            (⟨m.effects, some report⟩ :: later, ended)

end Tester

end ValueLens
