import PatchTrial.Arguments
import PatchTrial.Decimal.Double
import PatchTrial.Decimal.Shortest
import PatchTrial.DiagnosticLog
import PatchTrial.ExitStatus
import PatchTrial.Harness
import PatchTrial.IoError
import PatchTrial.Json.Decoder
import PatchTrial.Json.Document
import PatchTrial.Json.Number
import PatchTrial.Json.Problem
import PatchTrial.Json.Token
import PatchTrial.Machine.Delivery
import PatchTrial.Machine.Files
import PatchTrial.Machine.Loader
import PatchTrial.Machine.Program
import PatchTrial.Machine.Schedule
import PatchTrial.Machine.Shell.Arithmetic
import PatchTrial.Machine.Shell.Invocation
import PatchTrial.Machine.Shell.Parser
import PatchTrial.Machine.Shell.Pattern
import PatchTrial.Machine.Shell.Run
import PatchTrial.Machine.Shell.State
import PatchTrial.Machine.Shell.Syntax
import PatchTrial.Machine.State
import PatchTrial.Machine.System
import PatchTrial.Machine.Trials
import PatchTrial.Machine.Utility.Basic
import PatchTrial.Machine.Utility.Print
import PatchTrial.Machine.Utility.Signals
import PatchTrial.Machine.Utility.Test
import PatchTrial.Main
import PatchTrial.Path
import PatchTrial.Plan
import PatchTrial.Program
import PatchTrial.Refusal
import PatchTrial.Regex
import PatchTrial.Regex.CharSet
import PatchTrial.Regex.Matcher
import PatchTrial.Regex.Node
import PatchTrial.Regex.Parser
import PatchTrial.Regex.PropertyName
import PatchTrial.Regex.Starts
import PatchTrial.Scenario
import PatchTrial.Settings
import PatchTrial.Suite.Discovery
import PatchTrial.Suite.Run
import PatchTrial.Suite.Tally
import PatchTrial.Text.Blank
import PatchTrial.Text.CaseFold
import PatchTrial.Text.Category
import PatchTrial.Text.Lines
import PatchTrial.Text.Property
import PatchTrial.Text.Quoted
import PatchTrial.Text.Runs
import PatchTrial.Text.Script
import PatchTrial.Text.ShellWords
import PatchTrial.Text.Utf8
import PatchTrial.Trial.Failure
import PatchTrial.Trial.Roster
import PatchTrial.Trial.Run
import PatchTrial.Trial.Target
import PatchTrial.Trial.Tool
import PatchTrial.Validator.Check
import PatchTrial.Validator.Description
import PatchTrial.Validator.Judgment
import PatchTrial.Validator.Preset
import PatchTrial.Validator.Spec
import PatchTrial.Validator.State
import PatchTrial.Validator.Table
import PatchTrial.Proofs.Validator.Language
import PatchTrial.Proofs.Regex.AnyText
import PatchTrial.Proofs.Validator.SharedKeys
import PatchTrial.Proofs.Path
import PatchTrial.Proofs.Plan.Runs
import PatchTrial.Proofs.Plan.Asks
import PatchTrial.Proofs.Plan.Adds
import PatchTrial.Proofs.Trial.Actions
import PatchTrial.Proofs.Trial.Stages
import PatchTrial.Proofs.Trial.Care
import PatchTrial.Proofs.Trial.Requests
import PatchTrial.Proofs.Trial.Untroubled
import PatchTrial.Proofs.DiagnosticLog
import PatchTrial.Proofs.Validator.Writers
import PatchTrial.Proofs.Trial.Verdict
import PatchTrial.Proofs.Trial.Leftovers
import PatchTrial.Proofs.Trial.Discipline
import PatchTrial.Proofs.Text.Codec
import PatchTrial.Proofs.Text.Utf8
import PatchTrial.Proofs.Trial.StatLine
import PatchTrial.Proofs.Trial.Processes
import PatchTrial.Proofs.Trial.Termination
import PatchTrial.Proofs.Validator.Evidence
import PatchTrial.Proofs.Validator.Moves
import PatchTrial.Proofs.Validator.FirstRefusal
import PatchTrial.Proofs.Validator.Acceptance
import PatchTrial.Proofs.Validator.Compilation
import PatchTrial.Proofs.Validator.Histories
import PatchTrial.Proofs.Trial.Snapshot
import PatchTrial.Proofs.Trial.Wrappers
import PatchTrial.Proofs.Validator.Order
import PatchTrial.Proofs.Validator.PatchShown
import PatchTrial.Proofs.Scenario
import PatchTrial.Proofs.Suite.Record
import PatchTrial.Proofs.Suite.Discovery
import PatchTrial.Proofs.Trial.Progress
import PatchTrial.Proofs.Trial.Notes
import PatchTrial.Proofs.Trial.Journal
import PatchTrial.Proofs.Suite.Turns
import PatchTrial.Proofs.Suite.Progress
import PatchTrial.Proofs.Suite.Journal
import PatchTrial.Proofs.Trial.Asides
import PatchTrial.Proofs.Trial.Custody
import PatchTrial.Proofs.Trial.Tenure
import PatchTrial.Proofs.Trial.Uses
import PatchTrial.Proofs.Trial.Lifecycle
import PatchTrial.Proofs.Trial.Survivors
import PatchTrial.Proofs.Suite.Signals
import PatchTrial.Proofs.Machine.Interrupts
import PatchTrial.Proofs.Machine.Starting
import PatchTrial.Proofs.Suite.Interrupts
import PatchTrial.Proofs.Trial.Waits
import PatchTrial.Proofs.Trial.Protocol
import PatchTrial.Proofs.Trial.Terminators
import PatchTrial.Proofs.Trial.LostProgress
import PatchTrial.Proofs.Suite.LostProgress
import PatchTrial.Proofs.Suite.Verdicts
import PatchTrial.Proofs.Program.Stages
import PatchTrial.Proofs.Program.History
import PatchTrial.Proofs.Program.Outcome
import PatchTrial.Proofs.Program.TargetWords
import PatchTrial.Proofs.Json.Values
import PatchTrial.Proofs.Json.Numerals
import PatchTrial.Proofs.Json.Texts
import PatchTrial.Proofs.Json.Lexemes
import PatchTrial.Proofs.Json.Decoders
import PatchTrial.Proofs.Json.Records
import PatchTrial.Proofs.Json.Places
import PatchTrial.Proofs.Validator.Members
import PatchTrial.Proofs.Documents
import PatchTrial.Proofs.Text.Lines
import PatchTrial.Proofs.Text.Spans
import PatchTrial.Proofs.Text.ShellWords
import PatchTrial.Proofs.Arguments
import PatchTrial.Proofs.Commands
import PatchTrial.Proofs.Trial.Chains
import PatchTrial.Proofs.Regex.Sentences
import PatchTrial.Proofs.Validator.Vocabulary
import PatchTrial.Proofs.Validator.Sources
import PatchTrial.Proofs.Validator.Unions
import PatchTrial.Proofs.Validator.Appearances
import PatchTrial.Proofs.Trial.LineForm
