import Dialogue.Action
import Dialogue.Action.Template
import Dialogue.Calls
import Dialogue.Chat
import Dialogue.Command
import Dialogue.Command.Arguments
import Dialogue.Command.FileTree
import Dialogue.Command.Help
import Dialogue.Command.Report
import Dialogue.Command.System
import Dialogue.Condition
import Dialogue.Condition.Formula
import Dialogue.Condition.Parser
import Dialogue.Condition.Token
import Dialogue.Config
import Dialogue.Decimal.Dyadic
import Dialogue.Decimal.Layout
import Dialogue.Decimal.Reader
import Dialogue.Decimal.Scaled
import Dialogue.Decimal.Shortest
import Dialogue.Duration
import Dialogue.Error
import Dialogue.Event
import Dialogue.Expr
import Dialogue.Host
import Dialogue.Identifier
import Dialogue.Instance
import Dialogue.Json
import Dialogue.Json.Interest
import Dialogue.Json.Reader
import Dialogue.Json.Record
import Dialogue.Library
import Dialogue.Library.Error
import Dialogue.Library.File
import Dialogue.Library.References
import Dialogue.Main
import Dialogue.Notice
import Dialogue.Pattern
import Dialogue.Program
import Dialogue.Program.Compile
import Dialogue.Proofs.Action.Template
import Dialogue.Proofs.Calls
import Dialogue.Proofs.Calls.Life
import Dialogue.Proofs.Calls.Queue
import Dialogue.Proofs.Condition.Grammar
import Dialogue.Proofs.Condition.Rendering
import Dialogue.Proofs.Condition.Spelling
import Dialogue.Proofs.Document.Field
import Dialogue.Proofs.Document.Statement
import Dialogue.Proofs.Document.Value
import Dialogue.Proofs.Equality
import Dialogue.Proofs.Evaluation
import Dialogue.Proofs.Expr.Source
import Dialogue.Proofs.Expr.Template
import Dialogue.Proofs.Host.Closing
import Dialogue.Proofs.Host.Discarding
import Dialogue.Proofs.Host.Handling
import Dialogue.Proofs.Host.Orderly
import Dialogue.Proofs.Host.Sequential
import Dialogue.Proofs.Host.Traffic
import Dialogue.Proofs.Library.Loading
import Dialogue.Proofs.Naming
import Dialogue.Proofs.Number
import Dialogue.Proofs.Program.Choices
import Dialogue.Proofs.Program.ControlFlow
import Dialogue.Proofs.Program.Correctness
import Dialogue.Proofs.Program.Faults
import Dialogue.Proofs.Program.Flattening
import Dialogue.Proofs.Program.Spinning
import Dialogue.Proofs.Program.Timeouts
import Dialogue.Proofs.Program.Trace
import Dialogue.Proofs.Program.Validation
import Dialogue.Proofs.Program.Within
import Dialogue.Proofs.Replay.Firing
import Dialogue.Proofs.Replay.Idleness
import Dialogue.Proofs.Replay.Midway
import Dialogue.Proofs.Replay.Poisoning
import Dialogue.Proofs.Replay.Record
import Dialogue.Proofs.Replay.Waiting
import Dialogue.Proofs.Session.Act
import Dialogue.Proofs.Session.Activation
import Dialogue.Proofs.Session.Activations
import Dialogue.Proofs.Session.Agreement
import Dialogue.Proofs.Session.Announcement
import Dialogue.Proofs.Session.Arbitration
import Dialogue.Proofs.Session.Budget
import Dialogue.Proofs.Session.Change
import Dialogue.Proofs.Session.Clock
import Dialogue.Proofs.Session.Conduct
import Dialogue.Proofs.Session.Conservation
import Dialogue.Proofs.Session.Constancy
import Dialogue.Proofs.Session.Delivery
import Dialogue.Proofs.Session.Downfall
import Dialogue.Proofs.Session.Ending
import Dialogue.Proofs.Session.Exhaustion
import Dialogue.Proofs.Session.Expectation
import Dialogue.Proofs.Session.Forest
import Dialogue.Proofs.Session.Hearing
import Dialogue.Proofs.Session.History
import Dialogue.Proofs.Session.Isolation
import Dialogue.Proofs.Session.Limits
import Dialogue.Proofs.Session.Lineage
import Dialogue.Proofs.Session.Orphan
import Dialogue.Proofs.Session.Progress
import Dialogue.Proofs.Session.Recursion
import Dialogue.Proofs.Session.Refusal
import Dialogue.Proofs.Session.Remembrance
import Dialogue.Proofs.Session.Rest
import Dialogue.Proofs.Session.Run
import Dialogue.Proofs.Session.Sequence
import Dialogue.Proofs.Session.Sound
import Dialogue.Proofs.Session.Stack
import Dialogue.Proofs.Session.Stride
import Dialogue.Proofs.Session.Subtree
import Dialogue.Proofs.Session.Suspension
import Dialogue.Proofs.Session.Timeout
import Dialogue.Proofs.Session.Timing
import Dialogue.Proofs.Session.Validity
import Dialogue.Proofs.Session.Wakeup
import Dialogue.Proofs.Table
import Dialogue.Proofs.Variables
import Dialogue.Regex.Machine
import Dialogue.Regex.Reader
import Dialogue.Regex.Search
import Dialogue.Regex.Syntax
import Dialogue.Replay
import Dialogue.Script
import Dialogue.Session
import Dialogue.Session.Activation
import Dialogue.Session.Delivery
import Dialogue.Session.Lifecycle
import Dialogue.Session.Settlement
import Dialogue.Session.State
import Dialogue.Session.Turn
import Dialogue.Statement
import Dialogue.Statement.Document
import Dialogue.Table
import Dialogue.Text.Blank
import Dialogue.Text.Letter
import Dialogue.Text.Lines
import Dialogue.Text.Path
import Dialogue.Text.Piece
import Dialogue.Text.Plain
import Dialogue.Text.Quoted
import Dialogue.Timers
import Dialogue.Timestamp
import Dialogue.Toml
import Dialogue.Toml.Quoted
import Dialogue.Toml.Scalar
import Dialogue.Toml.Tree
import Dialogue.Value
import Dialogue.Vocabulary
