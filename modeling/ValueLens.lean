import ValueLens.Numeral
import ValueLens.Binary
import ValueLens.Decimal.Scientific
import ValueLens.Decimal.Shortest
import ValueLens.Decimal.Reading
import ValueLens.Text.Ranges
import ValueLens.Text.Printable
import ValueLens.Text.Extender
import ValueLens.Text.Alphanumeric
import ValueLens.Text.Blank
import ValueLens.Text.Quoted
import ValueLens.Text.Layout
import ValueLens.HexDump
import ValueLens.TypeName
import ValueLens.Shape
import ValueLens.Graph
import ValueLens.Scalar
import ValueLens.Config
import ValueLens.Trace
import ValueLens.Render.State
import ValueLens.Render.Hook
import ValueLens.Render.Chain
import ValueLens.Render.KeyOrder
import ValueLens.Render.Mode
import ValueLens.Render.Walk
import ValueLens.Verb
import ValueLens.Template
import ValueLens.DebugLine
import ValueLens.Tester
import ValueLens.Sink
import ValueLens.Number
import ValueLens.Json.Value
import ValueLens.Json.Reader
import ValueLens.Json.Printer
import ValueLens.Yaml.Cursor
import ValueLens.Yaml.Token
import ValueLens.Yaml.ScalarText
import ValueLens.Yaml.Lexer
import ValueLens.Yaml.Tree
import ValueLens.Yaml.Plain
import ValueLens.Yaml.Value
import ValueLens.Yaml.Reader
import ValueLens.Failure
import ValueLens.CommandLine.Invocation
import ValueLens.Parsers
import ValueLens.Config.Reading
import ValueLens.Document
import ValueLens.Owned.Type
import ValueLens.Owned.Value
import ValueLens.Owned.Native
import ValueLens.CommandLine.Arguments
import ValueLens.CommandLine.Run
import ValueLens.Main
import ValueLens.Proofs.Digits
import ValueLens.Proofs.Spelling
import ValueLens.Proofs.Rounding
import ValueLens.Proofs.RoundingInterval
import ValueLens.Proofs.ShortestDecimal
import ValueLens.Proofs.DecimalLayout
import ValueLens.Proofs.NumberText
import ValueLens.Proofs.Agreement
import ValueLens.Proofs.Run
import ValueLens.Proofs.Form
import ValueLens.Proofs.Coupling
import ValueLens.Proofs.Chain
import ValueLens.Proofs.Congruence
import ValueLens.Proofs.Facing
import ValueLens.Proofs.Level
import ValueLens.Proofs.Accord
import ValueLens.Proofs.Traversal
import ValueLens.Proofs.Arrival
import ValueLens.Proofs.Termination
import ValueLens.Proofs.Holding
import ValueLens.Proofs.NaturalOrder
import ValueLens.Proofs.Suppression
import ValueLens.Proofs.Siblings
import ValueLens.Proofs.Stacking
import ValueLens.Proofs.Placement
import ValueLens.Proofs.Fuel
import ValueLens.Proofs.Lingering
import ValueLens.Proofs.Apart
import ValueLens.Proofs.Identity
import ValueLens.Proofs.Writing
import ValueLens.Proofs.DocumentText
import ValueLens.Proofs.DocumentDump
import ValueLens.Proofs.Likeness
import ValueLens.Proofs.Kinship
import ValueLens.Proofs.KindredWalks
import ValueLens.Proofs.Privacy
import ValueLens.Proofs.Renaming
import ValueLens.Proofs.ByteViews
import ValueLens.Proofs.Exhaustion
import ValueLens.Proofs.DepthLimit
import ValueLens.Proofs.VerbLevel
import ValueLens.Proofs.Silence
import ValueLens.Proofs.Annotation
import ValueLens.Proofs.VerbReach
import ValueLens.Proofs.Completion
import ValueLens.Proofs.KeyEcho
import ValueLens.Proofs.ExactOrder
import ValueLens.Proofs.EntryOrder
import ValueLens.Proofs.Copies
import ValueLens.Proofs.DocumentPlace
import ValueLens.Proofs.AllOrNothing
import ValueLens.Render.Pour
import ValueLens.Proofs.Pouring
import ValueLens.Proofs.Refusal
import ValueLens.Proofs.Unwrapping
import ValueLens.Proofs.VerbBytes
import ValueLens.Proofs.ClosedOrder
import ValueLens.Proofs.VerbPrivacy
import ValueLens.Proofs.HexReading
import ValueLens.Proofs.Narrowing
import ValueLens.Proofs.FloatNotation
import ValueLens.Proofs.Arrangement
import ValueLens.Proofs.DigitLoop
import ValueLens.Proofs.VerbIntegers
import ValueLens.Proofs.ComplexText
import ValueLens.Proofs.TestHistory
import ValueLens.Proofs.TypeLabel
import ValueLens.Proofs.ShortName
