import LogicConsole.Config
import LogicConsole.Console
import LogicConsole.Console.Piped
import LogicConsole.Console.Scripted
import LogicConsole.Dialogue
import LogicConsole.Dialogue.Pager
import LogicConsole.Dialogue.Query
import LogicConsole.Engine
import LogicConsole.Engine.Directive
import LogicConsole.Engine.Facts
import LogicConsole.Engine.Scripted
import LogicConsole.Fault
import LogicConsole.FileSystem
import LogicConsole.FileSystem.Location
import LogicConsole.FileSystem.Path
import LogicConsole.History
import LogicConsole.History.File
import LogicConsole.History.Line
import LogicConsole.Interrupt
import LogicConsole.Journal
import LogicConsole.LogFilter
import LogicConsole.LogFilter.Directive
import LogicConsole.LogFilter.Pattern
import LogicConsole.LogFilter.Pattern.Bracket
import LogicConsole.LogFilter.Pattern.Escape
import LogicConsole.LogRecord
import LogicConsole.Main
import LogicConsole.MetaCommand
import LogicConsole.Output
import LogicConsole.Program
import LogicConsole.Proofs.Accumulation
import LogicConsole.Proofs.Bookkeeping
import LogicConsole.Proofs.Closing
import LogicConsole.Proofs.Commands
import LogicConsole.Proofs.Coupling
import LogicConsole.Proofs.Dealings
import LogicConsole.Proofs.Deliveries
import LogicConsole.Proofs.Entries
import LogicConsole.Proofs.Facts.Ambiguity
import LogicConsole.Proofs.Facts.Answers
import LogicConsole.Proofs.Facts.Endurance
import LogicConsole.Proofs.Facts.Retraction
import LogicConsole.Proofs.Facts.Store
import LogicConsole.Proofs.Facts.Wording
import LogicConsole.Proofs.Faultless
import LogicConsole.Proofs.Faults
import LogicConsole.Proofs.Forwarding
import LogicConsole.Proofs.Fuel
import LogicConsole.Proofs.HaltFlag
import LogicConsole.Proofs.Interrupts
import LogicConsole.Proofs.Ledger
import LogicConsole.Proofs.Listing
import LogicConsole.Proofs.Operation
import LogicConsole.Proofs.Pacing
import LogicConsole.Proofs.Phases
import LogicConsole.Proofs.Piping
import LogicConsole.Proofs.Playback
import LogicConsole.Proofs.Portions
import LogicConsole.Proofs.Replay
import LogicConsole.Proofs.Snapshot.Desk
import LogicConsole.Proofs.Snapshot.Sharing
import LogicConsole.Proofs.Steps
import LogicConsole.Proofs.Storage.Batches
import LogicConsole.Proofs.Storage.Calls
import LogicConsole.Proofs.Storage.Directories
import LogicConsole.Proofs.Storage.Escapes
import LogicConsole.Proofs.Storage.Files
import LogicConsole.Proofs.Storage.Footprint
import LogicConsole.Proofs.Storage.Interruption
import LogicConsole.Proofs.Storage.Lines
import LogicConsole.Proofs.Storage.Refusal
import LogicConsole.Proofs.Storage.Survival
import LogicConsole.Proofs.Stream.Agreement
import LogicConsole.Proofs.Stream.Conformance
import LogicConsole.Proofs.Stream.Demand
import LogicConsole.Proofs.Stream.Fairness
import LogicConsole.Proofs.Stream.Loss
import LogicConsole.Proofs.Stream.Plan
import LogicConsole.Proofs.Stream.Protocol
import LogicConsole.Proofs.Stream.Refinement
import LogicConsole.Proofs.Supply
import LogicConsole.Proofs.Term.Grammar
import LogicConsole.Proofs.Term.Instance
import LogicConsole.Proofs.Term.Offence
import LogicConsole.Proofs.Term.Readers
import LogicConsole.Proofs.Term.RoundTrip
import LogicConsole.Proofs.Transcript
import LogicConsole.Proofs.Truncation
import LogicConsole.Proofs.Twins
import LogicConsole.Proofs.Typed
import LogicConsole.Session
import LogicConsole.Solution
import LogicConsole.Startup
import LogicConsole.Stream.Channel
import LogicConsole.Stream.Exchange
import LogicConsole.Stream.Ready
import LogicConsole.Term
import LogicConsole.Term.Matching
import LogicConsole.Term.Parser
import LogicConsole.Term.Printer
import LogicConsole.Text.Alphanumeric
import LogicConsole.Text.Blank
import LogicConsole.Text.Bytes
import LogicConsole.Text.Cluster
import LogicConsole.Text.ClusterTable
import LogicConsole.Text.Lines
import LogicConsole.Text.Numeral
import LogicConsole.Theme
import LogicConsole.Toml.Document
import LogicConsole.Toml.Number
import LogicConsole.Toml.Table
import LogicConsole.Toml.Token
