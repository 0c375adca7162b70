import RvConsole.Command.Flag
import RvConsole.Command.Run
import RvConsole.Display.Listing
import RvConsole.Display.Table
import RvConsole.Editor.Basic
import RvConsole.Editor.Key
import RvConsole.Editor.Session
import RvConsole.Editor.Terminal
import RvConsole.Expression.Builtin
import RvConsole.Expression.Escape
import RvConsole.Expression.Evaluate
import RvConsole.Expression.Fault
import RvConsole.Expression.Lexer
import RvConsole.Expression.Nearest
import RvConsole.Expression.Operate
import RvConsole.Expression.Parser
import RvConsole.Expression.Resolve
import RvConsole.Expression.Token
import RvConsole.Expression.Tree
import RvConsole.Expression.Value
import RvConsole.Files.Path
import RvConsole.Files.Store
import RvConsole.Isa.Assemble
import RvConsole.Isa.Field
import RvConsole.Isa.Format
import RvConsole.Isa.Immediate
import RvConsole.Isa.Instruction
import RvConsole.Isa.Literal
import RvConsole.Isa.MemoryOperand
import RvConsole.Isa.Op
import RvConsole.Isa.OperandError
import RvConsole.Isa.Register
import RvConsole.Link.Device
import RvConsole.Link.Exchange
import RvConsole.Link.Logger
import RvConsole.Link.Port
import RvConsole.Link.Serial
import RvConsole.Link.Simulator
import RvConsole.Link.Sink
import RvConsole.Locale.Message
import RvConsole.Locale.NumberStyle
import RvConsole.Locale.Style
import RvConsole.Locale.Subtag
import RvConsole.Locale.Tag
import RvConsole.Machine.Execute
import RvConsole.Machine.Extract
import RvConsole.Machine.Memory
import RvConsole.Machine.Serve
import RvConsole.Machine.State
import RvConsole.Machine.Trap
import RvConsole.Main
import RvConsole.Proofs.Display.Assembly
import RvConsole.Proofs.Display.Registers
import RvConsole.Proofs.Display.Table
import RvConsole.Proofs.Expression.Names
import RvConsole.Proofs.Files.Store
import RvConsole.Proofs.Isa.Arguments
import RvConsole.Proofs.Isa.Columns
import RvConsole.Proofs.Isa.Contents
import RvConsole.Proofs.Isa.Decoding
import RvConsole.Proofs.Isa.Encoding
import RvConsole.Proofs.Isa.Grammar
import RvConsole.Proofs.Isa.Layout
import RvConsole.Proofs.Isa.Literals
import RvConsole.Proofs.Isa.Lossless
import RvConsole.Proofs.Isa.MemoryOperands
import RvConsole.Proofs.Isa.Operand
import RvConsole.Proofs.Isa.Placement
import RvConsole.Proofs.Isa.Printing
import RvConsole.Proofs.Isa.Reading
import RvConsole.Proofs.Isa.RegisterNames
import RvConsole.Proofs.Isa.Spellings
import RvConsole.Proofs.Isa.Wiring
import RvConsole.Proofs.Link.Delivery
import RvConsole.Proofs.Link.Logging
import RvConsole.Proofs.Link.Pieces
import RvConsole.Proofs.Link.Pipe
import RvConsole.Proofs.Link.Record
import RvConsole.Proofs.Link.Refinement
import RvConsole.Proofs.Link.Timeout
import RvConsole.Proofs.Machine.Agreement
import RvConsole.Proofs.Machine.Csrs
import RvConsole.Proofs.Machine.Dispatch
import RvConsole.Proofs.Machine.Effect
import RvConsole.Proofs.Machine.Failure
import RvConsole.Proofs.Machine.Run
import RvConsole.Proofs.Machine.Step
import RvConsole.Proofs.Machine.Stores
import RvConsole.Proofs.Machine.Stream
import RvConsole.Proofs.Machine.Values
import RvConsole.Proofs.Session.Boundaries
import RvConsole.Proofs.Session.Constants
import RvConsole.Proofs.Session.Equates
import RvConsole.Proofs.Session.Expressions
import RvConsole.Proofs.Session.History
import RvConsole.Proofs.Session.OverPort
import RvConsole.Proofs.Session.Requests
import RvConsole.Proofs.Session.Sites
import RvConsole.Proofs.Session.Step
import RvConsole.Proofs.Session.Traffic
import RvConsole.Proofs.Session.Words
import RvConsole.Proofs.Text.Binary
import RvConsole.Proofs.Text.Fields
import RvConsole.Proofs.Text.Lines
import RvConsole.Proofs.Text.Measure
import RvConsole.Proofs.Text.Numeral
import RvConsole.Proofs.Text.Runes
import RvConsole.Proofs.Text.Sequences
import RvConsole.Proofs.Text.Trimming
import RvConsole.Proofs.Text.Visible
import RvConsole.Session.Basic
import RvConsole.Session.Close
import RvConsole.Session.Expand
import RvConsole.Session.Line
import RvConsole.Settings.Basic
import RvConsole.Settings.Toml.Document
import RvConsole.Settings.Toml.Error
import RvConsole.Settings.Toml.Number
import RvConsole.Settings.Toml.Quoted
import RvConsole.Settings.Toml.Reader
import RvConsole.Settings.Toml.Tree
import RvConsole.Text.Basic
import RvConsole.Text.Blank
import RvConsole.Text.Integer
import RvConsole.Text.Letter
import RvConsole.Text.LetterTable
import RvConsole.Text.Line
import RvConsole.Text.Lower
import RvConsole.Text.Numeral
import RvConsole.Text.Rune
