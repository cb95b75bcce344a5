import ScriptWire.Binary64.Basic
import ScriptWire.Binary64.Reading
import ScriptWire.Binary64.Shortest
import ScriptWire.Binary64.Text
import ScriptWire.Command.Arguments
import ScriptWire.Command.Run
import ScriptWire.Document.Error
import ScriptWire.Document.Number
import ScriptWire.Document.Parser
import ScriptWire.Document.Text
import ScriptWire.Document.Value
import ScriptWire.Estree.Fault
import ScriptWire.Estree.Form
import ScriptWire.Estree.Kind
import ScriptWire.Estree.Plan
import ScriptWire.Estree.Reader
import ScriptWire.Estree.Writer
import ScriptWire.Files.Basic
import ScriptWire.Files.Disk
import ScriptWire.Files.Path
import ScriptWire.Language.Error
import ScriptWire.Language.Registry
import ScriptWire.Literal.Digit
import ScriptWire.Literal.Error
import ScriptWire.Literal.Number
import ScriptWire.Literal.Text
import ScriptWire.Lowering.Basic
import ScriptWire.Lowering.Binding
import ScriptWire.Lowering.Error
import ScriptWire.Main
import ScriptWire.Message.Basic
import ScriptWire.Message.Build
import ScriptWire.Message.Dump
import ScriptWire.Message.Schema
import ScriptWire.Message.WellFormed
import ScriptWire.Proofs.Binary64.Arithmetic
import ScriptWire.Proofs.Binary64.Exact
import ScriptWire.Proofs.Binary64.Finite
import ScriptWire.Proofs.Binary64.Integer
import ScriptWire.Proofs.Binary64.Value
import ScriptWire.Proofs.Command.Arguments
import ScriptWire.Proofs.Command.Grammar
import ScriptWire.Proofs.Command.Inspect
import ScriptWire.Proofs.Command.Status
import ScriptWire.Proofs.Document.Bounded
import ScriptWire.Proofs.Document.Members
import ScriptWire.Proofs.Ensures
import ScriptWire.Proofs.Estree.Filled
import ScriptWire.Proofs.Estree.Filling
import ScriptWire.Proofs.Estree.Insertion
import ScriptWire.Proofs.Estree.Kinds
import ScriptWire.Proofs.Estree.Origin
import ScriptWire.Proofs.Estree.Prologue
import ScriptWire.Proofs.Estree.Readable
import ScriptWire.Proofs.Estree.RoundTrip
import ScriptWire.Proofs.Estree.Sound
import ScriptWire.Proofs.Estree.Standing
import ScriptWire.Proofs.Estree.Written
import ScriptWire.Proofs.Files.Disk
import ScriptWire.Proofs.Interface.Published
import ScriptWire.Proofs.Interface.Serialization
import ScriptWire.Proofs.Literal.Escapes
import ScriptWire.Proofs.Literal.Numeral
import ScriptWire.Proofs.Literal.Numeric
import ScriptWire.Proofs.Literal.Spelling
import ScriptWire.Proofs.Lowering.Binding
import ScriptWire.Proofs.Lowering.Blame
import ScriptWire.Proofs.Lowering.Compile
import ScriptWire.Proofs.Lowering.Completeness
import ScriptWire.Proofs.Lowering.Elements
import ScriptWire.Proofs.Lowering.Event
import ScriptWire.Proofs.Lowering.Fidelity
import ScriptWire.Proofs.Lowering.Image
import ScriptWire.Proofs.Lowering.Index
import ScriptWire.Proofs.Lowering.Inner
import ScriptWire.Proofs.Lowering.Levels
import ScriptWire.Proofs.Lowering.Limit
import ScriptWire.Proofs.Lowering.Nesting
import ScriptWire.Proofs.Lowering.Reached
import ScriptWire.Proofs.Lowering.Soundness
import ScriptWire.Proofs.Lowering.Trace
import ScriptWire.Proofs.Lowering.Walk
import ScriptWire.Proofs.Message.Field
import ScriptWire.Proofs.Message.Part
import ScriptWire.Proofs.Message.Reading
import ScriptWire.Proofs.Message.Sound
import ScriptWire.Proofs.Message.Zero
import ScriptWire.Proofs.Script.ArrayLiteral
import ScriptWire.Proofs.Script.Grammar.Basic
import ScriptWire.Proofs.Script.Grammar.Expression
import ScriptWire.Proofs.Script.Grammar.Member
import ScriptWire.Proofs.Script.Grammar.Statement
import ScriptWire.Proofs.Script.Inner
import ScriptWire.Proofs.Script.Parser
import ScriptWire.Proofs.Script.Piece
import ScriptWire.Proofs.Script.Prologue
import ScriptWire.Proofs.Script.Reading
import ScriptWire.Proofs.Script.Remaining
import ScriptWire.Proofs.Script.Unread
import ScriptWire.Proofs.Settings.Held
import ScriptWire.Proofs.Toml.Plain
import ScriptWire.Proofs.Toml.Written
import ScriptWire.Proofs.Tree.Erase
import ScriptWire.Proofs.Tree.Grammar
import ScriptWire.Proofs.Tree.Node
import ScriptWire.Proofs.Tree.Part
import ScriptWire.Proofs.Wire.Canonical
import ScriptWire.Proofs.Wire.Growth
import ScriptWire.Proofs.Wire.Intake
import ScriptWire.Proofs.Wire.RoundTrip
import ScriptWire.Proofs.Wire.Scalar
import ScriptWire.Proofs.Wire.Stable
import ScriptWire.Proofs.Wire.Truncation
import ScriptWire.Script.Character
import ScriptWire.Script.Grammar
import ScriptWire.Script.Grammar.Basic
import ScriptWire.Script.Grammar.Expression
import ScriptWire.Script.Grammar.Markup
import ScriptWire.Script.Grammar.Member
import ScriptWire.Script.Grammar.Module
import ScriptWire.Script.Grammar.Operator
import ScriptWire.Script.Grammar.Statement
import ScriptWire.Script.Kind
import ScriptWire.Script.Lexeme
import ScriptWire.Script.Reader
import ScriptWire.Script.Tree
import ScriptWire.Script.Trivia
import ScriptWire.Settings.Basic
import ScriptWire.Text.Invisible
import ScriptWire.Text.Quoted
import ScriptWire.Toml.Parser
import ScriptWire.Toml.Scalar
import ScriptWire.Toml.Value
import ScriptWire.Tree.Basic
import ScriptWire.Tree.Kind
import ScriptWire.Wire.Decoder
import ScriptWire.Wire.Encoder
import ScriptWire.Wire.Error
import ScriptWire.Wire.Varint
