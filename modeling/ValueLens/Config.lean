/-
**Render configuration.**

One record decides how values are rendered.  It names the indentation and the depth limit, switches
parts of the output off, orders the entries of maps, and says which element types count as bytes.

Main definitions:

* `ValueLens.Config` — the record, whose defaults are the default configuration;
* `ValueLens.Config.validate` — which configurations are refused;
* `ValueLens.Config.isByteElement` — which element types render as byte buffers;
* `ValueLens.Config.description` — the record as one line of text;
* `ValueLens.Config.Default` — the default configuration of a program.
-/
import ValueLens.Scalar
import ValueLens.Text.Quoted

set_option relaxedAutoImplicit false
set_option autoImplicit false

namespace ValueLens

/-- A test for element types that render as byte buffers, on the type name. -/
structure BytePredicate where
  test : String → Bool

/-- **How values are rendered.** -/
structure Config where
  /-- The indentation of one nesting level. -/
  indent : String := " "
  /-- The deepest nesting level that is shown; zero sets no limit. -/
  maxDepth : Nat := 0
  /-- Never ask values to describe themselves. -/
  disableMethods : Bool := false
  /-- Show guards as addresses and do not acquire them. -/
  disableGuardResolution : Bool := false
  /-- Leave the addresses out of the headers of indirections. -/
  disablePointerAddresses : Bool := false
  /-- Leave the capacities of sequences out. -/
  disableCapacities : Bool := false
  /-- Show the structure also of a value that described itself. -/
  continueOnMethod : Bool := false
  /-- Put the entries of maps in order. -/
  sortKeys : Bool := false
  /-- Order keys by their compact text if nothing else orders them. -/
  echoKeys : Bool := false
  /-- Stop after a debug line that carries an error. -/
  breakOnError : Bool := false
  /-- Further element types that count as bytes. -/
  byteElementTypes : List String := []
  /-- A further test for element types that count as bytes. -/
  bytePredicate : Option BytePredicate := none

namespace Config

instance : Inhabited Config := ⟨{}⟩

/-- Why a configuration is refused. -/
inductive Flaw where
  /-- The indentation would break lines. -/
  | indentBreaksLine
  deriving DecidableEq, Repr

/-- The wording of a flaw. -/
def Flaw.message : Flaw → String
  | .indentBreaksLine => "indent must not contain a line break"

/-- Refuses an indentation that would corrupt the output. -/
def validate (c : Config) : Except Flaw Unit :=
  if c.indent.toList.any fun ch => ch == '\n' || ch == '\r' then .error .indentBreaksLine
  else .ok ()

/-- **Whether elements of a type render as a byte buffer.** -/
def isByteElement (c : Config) (typeName : String) : Bool :=
  c.byteElementTypes.contains typeName
    || match c.bytePredicate with
       | some p => p.test typeName
       | none => false

/-- Whether one more nesting level, below `depth` open ones, would exceed the limit. -/
def atLimit (c : Config) (depth : Nat) : Bool :=
  c.maxDepth != 0 && decide (depth + 1 > c.maxDepth)

/-- The settings by name, in the order they are listed. -/
def settings (c : Config) : List (String × String) :=
  [("indent", Text.quoted c.indent),
   ("max_depth", Numeral.decimal c.maxDepth),
   ("disable_methods", Scalar.bool c.disableMethods),
   ("disable_guard_resolution", Scalar.bool c.disableGuardResolution),
   ("disable_pointer_addresses", Scalar.bool c.disablePointerAddresses),
   ("disable_capacities", Scalar.bool c.disableCapacities),
   ("continue_on_method", Scalar.bool c.continueOnMethod),
   ("sort_keys", Scalar.bool c.sortKeys),
   ("echo_keys", Scalar.bool c.echoKeys),
   ("break_on_error", Scalar.bool c.breakOnError),
   ("byte_element_types", "[" ++ ", ".intercalate (c.byteElementTypes.map Text.quoted) ++ "]"),
   ("byte_predicate", if c.bytePredicate.isSome then "Some(BytePredicate(..))" else "None")]

/-- **The configuration as one line of text.** -/
def description (c : Config) : String :=
  "Config \x7b " ++ ", ".intercalate (c.settings.map fun (name, value) => name ++ ": " ++ value)
    ++ " \x7d"

/-- **The default configuration of a program**, which is settled once: when it is first read, or
when one is installed before. -/
structure Default where
  settled : Option Config := none

namespace Default

/-- The default configuration, and that it is settled now. -/
def read (d : Default) : Config × Default :=
  (d.settled.getD {}, { settled := some (d.settled.getD {}) })

/-- Installs a default configuration, or hands it back if there is one already. -/
def install (d : Default) (c : Config) : Except Config Default :=
  if d.settled.isSome then .error c else .ok { settled := some c }

end Default

end Config

end ValueLens
