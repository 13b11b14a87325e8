import FormBasic.Component
import FormBasic.Config
import FormBasic.Data.Member
import FormBasic.Data.Object
import FormBasic.Fault
import FormBasic.Grammar.Cursor
import FormBasic.Grammar.Expr
import FormBasic.Grammar.Program
import FormBasic.Grammar.Stmt
import FormBasic.Json.Basic
import FormBasic.Json.Read
import FormBasic.Json.Write
import FormBasic.Library.Calculator
import FormBasic.Library.Functions
import FormBasic.Library.Strings
import FormBasic.Line
import FormBasic.Main
import FormBasic.Number.Arithmetic
import FormBasic.Number.Basic
import FormBasic.Number.Binary64
import FormBasic.Number.Decimal
import FormBasic.Number.Duration
import FormBasic.Number.Random
import FormBasic.Number.Shortest
import FormBasic.Proofs.Data.Links
import FormBasic.Proofs.Data.Rows
import FormBasic.Proofs.Data.Tables
import FormBasic.Proofs.Grammar.Accepted
import FormBasic.Proofs.Grammar.Before
import FormBasic.Proofs.Grammar.Beside
import FormBasic.Proofs.Grammar.Bounded
import FormBasic.Proofs.Grammar.ClassicCalls
import FormBasic.Proofs.Grammar.Derivation
import FormBasic.Proofs.Grammar.Enclosed
import FormBasic.Proofs.Grammar.Expressions
import FormBasic.Proofs.Grammar.Failures
import FormBasic.Proofs.Grammar.Indices
import FormBasic.Proofs.Grammar.Isolation
import FormBasic.Proofs.Grammar.Modules
import FormBasic.Proofs.Grammar.Phrase
import FormBasic.Proofs.Grammar.Placement
import FormBasic.Proofs.Grammar.Plain
import FormBasic.Proofs.Grammar.Positions
import FormBasic.Proofs.Grammar.RoundTrip
import FormBasic.Proofs.Grammar.SingleLine
import FormBasic.Proofs.Grammar.Statements
import FormBasic.Proofs.Grammar.Tandem
import FormBasic.Proofs.Grammar.Trimming
import FormBasic.Proofs.Grammar.Written
import FormBasic.Proofs.Library.Calculator
import FormBasic.Proofs.Number.Bits
import FormBasic.Proofs.Number.Display
import FormBasic.Proofs.Number.Literal
import FormBasic.Proofs.Number.Padded
import FormBasic.Proofs.Number.Rounding
import FormBasic.Proofs.Script.Commuting
import FormBasic.Proofs.Script.ConditionLoops
import FormBasic.Proofs.Script.Conduct
import FormBasic.Proofs.Script.Connections
import FormBasic.Proofs.Script.Conversions
import FormBasic.Proofs.Script.Counting
import FormBasic.Proofs.Script.Course
import FormBasic.Proofs.Script.Faults
import FormBasic.Proofs.Script.Filling
import FormBasic.Proofs.Script.Footprint
import FormBasic.Proofs.Script.Halted
import FormBasic.Proofs.Script.Histories
import FormBasic.Proofs.Script.Items
import FormBasic.Proofs.Script.Manners
import FormBasic.Proofs.Script.Opening
import FormBasic.Proofs.Script.Orderly
import FormBasic.Proofs.Script.Parts
import FormBasic.Proofs.Script.Plain
import FormBasic.Proofs.Script.Properties
import FormBasic.Proofs.Script.Purity
import FormBasic.Proofs.Script.Queries
import FormBasic.Proofs.Script.Readers
import FormBasic.Proofs.Script.Rounds
import FormBasic.Proofs.Script.Running
import FormBasic.Proofs.Script.Sparing
import FormBasic.Proofs.Script.Stages
import FormBasic.Proofs.Session.Escapes
import FormBasic.Proofs.Session.Law
import FormBasic.Proofs.Session.Loading
import FormBasic.Proofs.Session.Machine
import FormBasic.Proofs.Session.Registers
import FormBasic.Proofs.Session.Replay
import FormBasic.Proofs.Session.Settling
import FormBasic.Proofs.Session.Steps
import FormBasic.Proofs.Session.Stopped
import FormBasic.Proofs.Session.Ticks
import FormBasic.Proofs.Session.Timers
import FormBasic.Proofs.Session.Unwinding
import FormBasic.Proofs.Session.Variables
import FormBasic.Proofs.Table
import FormBasic.Proofs.Terminal.Disk
import FormBasic.Proofs.Terminal.Files
import FormBasic.Proofs.Text.Ascii
import FormBasic.Proofs.Text.Search
import FormBasic.Proofs.Token.Blanks
import FormBasic.Proofs.Token.ByLine
import FormBasic.Proofs.Token.Canonical
import FormBasic.Proofs.Token.Lines
import FormBasic.Proofs.Token.Pieces
import FormBasic.Proofs.Token.Scanning
import FormBasic.Proofs.Token.Sound
import FormBasic.Proofs.Token.Spans
import FormBasic.Proofs.Tree.Legible
import FormBasic.Proofs.Tree.Scanned
import FormBasic.Refusal
import FormBasic.Script.Basic
import FormBasic.Script.Call
import FormBasic.Script.Database
import FormBasic.Script.Eval
import FormBasic.Script.Exec
import FormBasic.Script.Property
import FormBasic.Script.Request
import FormBasic.Script.World
import FormBasic.Session.Event
import FormBasic.Session.Host
import FormBasic.Session.Rehearsal
import FormBasic.Session.Schedule
import FormBasic.Session.Turn
import FormBasic.Table
import FormBasic.Terminal.Arguments
import FormBasic.Terminal.Console
import FormBasic.Terminal.Declaration
import FormBasic.Terminal.Disk
import FormBasic.Terminal.Program
import FormBasic.Text.Basic
import FormBasic.Text.Blank
import FormBasic.Text.Case
import FormBasic.Text.CaseTable
import FormBasic.Text.Digit
import FormBasic.Text.Encoded
import FormBasic.Text.LetterTable
import FormBasic.Text.Newline
import FormBasic.Text.PrintableTable
import FormBasic.Text.Quoted
import FormBasic.Text.Range
import FormBasic.Text.Slice
import FormBasic.Token.Basic
import FormBasic.Token.Scan
import FormBasic.Tree.Basic
import FormBasic.Tree.Json
import FormBasic.Tree.Same
import FormBasic.Tree.Write
import FormBasic.Value.Basic
import FormBasic.Value.Coerce
import FormBasic.Value.Display
import FormBasic.Value.Entries
import FormBasic.Value.Equal
