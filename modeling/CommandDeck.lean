import CommandDeck.Analysis.Response
import CommandDeck.Analysis.Source
import CommandDeck.Bench.Filter.Edit
import CommandDeck.Bench.Filter.EditScript
import CommandDeck.Bench.Filter.Format
import CommandDeck.Bench.Filter.Lines
import CommandDeck.Bench.Filter.Regex
import CommandDeck.Bench.Filter.RegexText
import CommandDeck.Bench.Filter.Translation
import CommandDeck.Bench.Programs
import CommandDeck.Bench.Shell.Builtin
import CommandDeck.Bench.Shell.Calculation
import CommandDeck.Bench.Shell.Condition
import CommandDeck.Bench.Shell.Execution
import CommandDeck.Bench.Shell.Expansion
import CommandDeck.Bench.Shell.Pattern
import CommandDeck.Bench.Shell.Program
import CommandDeck.Bench.Shell.Reader
import CommandDeck.Bench.Shell.Script
import CommandDeck.Bench.Shell.Signal
import CommandDeck.Bench.Shell.State
import CommandDeck.Bench.Shell.Wildcard
import CommandDeck.CommandLine.Arguments
import CommandDeck.CommandLine.Commands
import CommandDeck.CommandLine.Request
import CommandDeck.Environment
import CommandDeck.Host.Basic
import CommandDeck.Host.Launch
import CommandDeck.Host.Workbench
import CommandDeck.Journal
import CommandDeck.Json.Document
import CommandDeck.Json.Numeral
import CommandDeck.Json.ReadError
import CommandDeck.Json.Reader
import CommandDeck.Json.Record
import CommandDeck.Json.Skip
import CommandDeck.Json.StringText
import CommandDeck.Json.Value
import CommandDeck.Main
import CommandDeck.Manifest.Basic
import CommandDeck.Manifest.Document
import CommandDeck.Manifest.Edit
import CommandDeck.Manifest.File
import CommandDeck.Manifest.Lookup
import CommandDeck.Manifest.Report
import CommandDeck.Manifest.Summary
import CommandDeck.Manifest.Validation
import CommandDeck.Number.Binary64
import CommandDeck.Number.Layout
import CommandDeck.Number.Shortest
import CommandDeck.Proofs.Analysis.Fence
import CommandDeck.Proofs.Host.Disk
import CommandDeck.Proofs.Host.Journal
import CommandDeck.Proofs.Host.Workbench
import CommandDeck.Proofs.Json.Decoding
import CommandDeck.Proofs.Json.Document
import CommandDeck.Proofs.Json.Escape
import CommandDeck.Proofs.Json.Fraction
import CommandDeck.Proofs.Json.ListTree
import CommandDeck.Proofs.Json.Members
import CommandDeck.Proofs.Json.NumberText
import CommandDeck.Proofs.Json.NumberValue
import CommandDeck.Proofs.Json.Reading
import CommandDeck.Proofs.Json.Rearrangement
import CommandDeck.Proofs.Json.Record
import CommandDeck.Proofs.Json.RecordPart
import CommandDeck.Proofs.Json.RecordTree
import CommandDeck.Proofs.Json.Skip
import CommandDeck.Proofs.Json.StringBody
import CommandDeck.Proofs.Json.Tree
import CommandDeck.Proofs.Json.VariantTree
import CommandDeck.Proofs.Json.WholeNumber
import CommandDeck.Proofs.Json.WrittenTree
import CommandDeck.Proofs.Manifest.AtomicSave
import CommandDeck.Proofs.Manifest.Document
import CommandDeck.Proofs.Manifest.EditOrder
import CommandDeck.Proofs.Manifest.EditedReport
import CommandDeck.Proofs.Manifest.Findings
import CommandDeck.Proofs.Manifest.IntegerDefault
import CommandDeck.Proofs.Manifest.Label
import CommandDeck.Proofs.Manifest.Listing
import CommandDeck.Proofs.Manifest.Lookup
import CommandDeck.Proofs.Manifest.MemberOrder
import CommandDeck.Proofs.Manifest.Readable
import CommandDeck.Proofs.Manifest.Rules
import CommandDeck.Proofs.Manifest.SavedFile
import CommandDeck.Proofs.Number.Exact
import CommandDeck.Proofs.Number.Rounding
import CommandDeck.Proofs.Number.Shortest
import CommandDeck.Proofs.Number.Value
import CommandDeck.Proofs.Registry.Coherence
import CommandDeck.Proofs.Registry.CommandOrder
import CommandDeck.Proofs.Registry.History
import CommandDeck.Proofs.Registry.Isolation
import CommandDeck.Proofs.Registry.Observation
import CommandDeck.Proofs.Registry.Stamps
import CommandDeck.Proofs.Registry.Verdict
import CommandDeck.Proofs.Settings.Document
import CommandDeck.Proofs.Settings.SavedFile
import CommandDeck.Proofs.Settings.Text
import CommandDeck.Proofs.Storage.Frame
import CommandDeck.Proofs.Storage.Move
import CommandDeck.Proofs.Storage.Path
import CommandDeck.Proofs.Storage.Write
import CommandDeck.Proofs.Terminal.Addressing
import CommandDeck.Proofs.Terminal.Agreement
import CommandDeck.Proofs.Terminal.Delay
import CommandDeck.Proofs.Terminal.Opening
import CommandDeck.Proofs.Terminal.Outcome
import CommandDeck.Proofs.Terminal.Payload
import CommandDeck.Proofs.Terminal.Replay
import CommandDeck.Proofs.Terminal.RequiredFlags
import CommandDeck.Proofs.Terminal.Snapshot
import CommandDeck.Proofs.Terminal.Timestamp
import CommandDeck.Proofs.Terminal.Transcript
import CommandDeck.Proofs.Terminal.Turn
import CommandDeck.Proofs.Text.Trim
import CommandDeck.Proofs.Text.Words
import CommandDeck.Proofs.Time.Calendar
import CommandDeck.Proofs.Time.Stamp
import CommandDeck.Proofs.Toml.Assignment
import CommandDeck.Proofs.Toml.StringText
import CommandDeck.Registry
import CommandDeck.Settings
import CommandDeck.Settings.File
import CommandDeck.Storage.FileError
import CommandDeck.Storage.FileStep
import CommandDeck.Storage.FileTree
import CommandDeck.Storage.Path
import CommandDeck.Storage.System
import CommandDeck.Terminal.Event
import CommandDeck.Terminal.Execution
import CommandDeck.Terminal.Interpreter
import CommandDeck.Terminal.Invocation
import CommandDeck.Terminal.Opening
import CommandDeck.Terminal.Rendering
import CommandDeck.Terminal.Session
import CommandDeck.Terminal.TypedLine
import CommandDeck.Text.Blank
import CommandDeck.Text.BreakClass
import CommandDeck.Text.Cluster
import CommandDeck.Text.CodeRange
import CommandDeck.Text.Digit
import CommandDeck.Text.Lines
import CommandDeck.Text.Printable
import CommandDeck.Text.Quoted
import CommandDeck.Text.Style
import CommandDeck.Text.Utf8
import CommandDeck.Time.Calendar
import CommandDeck.Time.Clock
import CommandDeck.Time.Duration
import CommandDeck.Time.Stamp
import CommandDeck.Toml.Document
import CommandDeck.Toml.Scalar
import CommandDeck.Toml.StringText
import CommandDeck.Toml.Value
