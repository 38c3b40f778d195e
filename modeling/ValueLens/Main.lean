/-
**The program.**

Reads what the arguments ask for, and prints the outcome.  Everything else is decided in
`ValueLens.CommandLine`.
-/
import ValueLens.CommandLine.Run

set_option relaxedAutoImplicit false
set_option autoImplicit false

namespace ValueLens.CommandLine

/-- The contents of a file, if it can be read as text. -/
def fileText (path : String) : IO (Option String) := do
  try
    pure (some (← IO.FS.readFile path))
  catch _ => pure none

/-- The standard input to its end, if it is text. -/
def inputText : IO (Option String) := do
  try
    pure (some (← (← IO.getStdin).readToEnd))
  catch _ => pure none

/-- The surroundings as far as an invocation reads them. -/
def surroundings (i : Invocation) : IO Surroundings := do
  let texts ← i.paths.mapM fun path => do pure (path, ← fileText path)
  let input ← if i.sources.contains .standardInput then inputText else pure (some "")
  pure { file := fun path => (texts.lookup path).join, input := input }

/-- The environment variable that may hold the path of a configuration. -/
def configVariable : String := "XRAY_CONFIG"

/-- Prints an outcome. -/
def report (o : Outcome) : IO UInt32 := do
  (← IO.getStdout).putStr o.output
  match o with
  | .printed _ => pure ()
  | .failed abort =>
      IO.eprintln ("Error: " ++ abort.message ++ "\n\nCaused by:\n    " ++ abort.cause.message)
  | .rejected => IO.eprint helpText
  pure o.code.toUInt32

end ValueLens.CommandLine

open ValueLens.CommandLine in
/-- The entry point. -/
def main (arguments : List String) : IO UInt32 := do
  let preset ← IO.getEnv configVariable
  let s ←
    match parsers.arguments preset arguments with
    | .ok i => surroundings i
    | .error _ => pure { file := fun _ => none }
  report (respond parsers s preset arguments)
