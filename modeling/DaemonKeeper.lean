import DaemonKeeper.Action
import DaemonKeeper.Build.Adapter
import DaemonKeeper.Calendar
import DaemonKeeper.Command
import DaemonKeeper.Command.Completion
import DaemonKeeper.CommandLine
import DaemonKeeper.Config.Cycle
import DaemonKeeper.Config.Decode
import DaemonKeeper.Config.Fault
import DaemonKeeper.Config.Form
import DaemonKeeper.Config.Load
import DaemonKeeper.Config.Model
import DaemonKeeper.Config.Summary
import DaemonKeeper.Config.Validate
import DaemonKeeper.Daemon
import DaemonKeeper.Decimal.Binary64
import DaemonKeeper.Duration
import DaemonKeeper.Entry
import DaemonKeeper.Fault
import DaemonKeeper.Git.Repository
import DaemonKeeper.Git.Upstream
import DaemonKeeper.IoFault
import DaemonKeeper.LogFilter
import DaemonKeeper.Main
import DaemonKeeper.Path
import DaemonKeeper.Process
import DaemonKeeper.Project
import DaemonKeeper.Proofs.BoundedRuns
import DaemonKeeper.Proofs.BranchListing
import DaemonKeeper.Proofs.BuildDirectories
import DaemonKeeper.Proofs.BuildNameOrder
import DaemonKeeper.Proofs.BuildNames
import DaemonKeeper.Proofs.BuildPlan
import DaemonKeeper.Proofs.CapturedLines
import DaemonKeeper.Proofs.CivilDays
import DaemonKeeper.Proofs.CommandWords
import DaemonKeeper.Proofs.CommitMarkers
import DaemonKeeper.Proofs.Confinement
import DaemonKeeper.Proofs.CurrentBinary
import DaemonKeeper.Proofs.CycleSearch
import DaemonKeeper.Proofs.DaemonCycles
import DaemonKeeper.Proofs.DaemonOrder
import DaemonKeeper.Proofs.DaemonPasses
import DaemonKeeper.Proofs.DaemonRuns
import DaemonKeeper.Proofs.DecidedPolls
import DaemonKeeper.Proofs.Decoding
import DaemonKeeper.Proofs.DurationText
import DaemonKeeper.Proofs.Entries
import DaemonKeeper.Proofs.FailedPasses
import DaemonKeeper.Proofs.FaultlessRuns
import DaemonKeeper.Proofs.GitMachines
import DaemonKeeper.Proofs.GracefulStop
import DaemonKeeper.Proofs.HandleExchanges
import DaemonKeeper.Proofs.History
import DaemonKeeper.Proofs.KeyOrder
import DaemonKeeper.Proofs.KnownKeys
import DaemonKeeper.Proofs.LastStart
import DaemonKeeper.Proofs.LivingChild
import DaemonKeeper.Proofs.Mentions
import DaemonKeeper.Proofs.NumberRanges
import DaemonKeeper.Proofs.ObedientChildren
import DaemonKeeper.Proofs.Outcome
import DaemonKeeper.Proofs.PartyLogs
import DaemonKeeper.Proofs.PathComponents
import DaemonKeeper.Proofs.Plan
import DaemonKeeper.Proofs.Probes
import DaemonKeeper.Proofs.ProcessRuns
import DaemonKeeper.Proofs.ProjectOrder
import DaemonKeeper.Proofs.ProjectSources
import DaemonKeeper.Proofs.RebuildPass
import DaemonKeeper.Proofs.RecordFields
import DaemonKeeper.Proofs.RenderedArguments
import DaemonKeeper.Proofs.ReportedCycles
import DaemonKeeper.Proofs.RequestDirectories
import DaemonKeeper.Proofs.Resolution
import DaemonKeeper.Proofs.RestartPass
import DaemonKeeper.Proofs.RulesInTurn
import DaemonKeeper.Proofs.RunEnd
import DaemonKeeper.Proofs.RunLogs
import DaemonKeeper.Proofs.RunProgress
import DaemonKeeper.Proofs.RunStages
import DaemonKeeper.Proofs.SingleClone
import DaemonKeeper.Proofs.SourceVisits
import DaemonKeeper.Proofs.StopSignals
import DaemonKeeper.Proofs.TaskRequests
import DaemonKeeper.Proofs.Trace
import DaemonKeeper.Proofs.TrackedBranches
import DaemonKeeper.Proofs.TreeOrder
import DaemonKeeper.Proofs.TreeVisits
import DaemonKeeper.Proofs.Trimming
import DaemonKeeper.Proofs.UpstreamVerdict
import DaemonKeeper.Proofs.Validation
import DaemonKeeper.Rehearsal.Draft
import DaemonKeeper.Rehearsal.Files
import DaemonKeeper.Rehearsal.Image
import DaemonKeeper.Rehearsal.Machine
import DaemonKeeper.Rehearsal.Program
import DaemonKeeper.Rehearsal.Rulebook
import DaemonKeeper.Rehearsal.Shell.Arithmetic
import DaemonKeeper.Rehearsal.Shell.Condition
import DaemonKeeper.Rehearsal.Shell.Expansion
import DaemonKeeper.Rehearsal.Shell.Formatting
import DaemonKeeper.Rehearsal.Shell.Interpreter
import DaemonKeeper.Rehearsal.Shell.Pattern
import DaemonKeeper.Rehearsal.Shell.Reader
import DaemonKeeper.Rehearsal.Shell.Script
import DaemonKeeper.Rehearsal.Stage
import DaemonKeeper.Rehearsal.Tools
import DaemonKeeper.Request
import DaemonKeeper.Shown
import DaemonKeeper.Supervisor
import DaemonKeeper.Text.Alphanumeric
import DaemonKeeper.Text.Blank
import DaemonKeeper.Text.Cased
import DaemonKeeper.Text.Decimal
import DaemonKeeper.Text.Lines
import DaemonKeeper.Text.LowerCase
import DaemonKeeper.Text.Pieces
import DaemonKeeper.Text.Printable
import DaemonKeeper.Text.Quoted
import DaemonKeeper.Text.Runs
import DaemonKeeper.Text.Utf8
import DaemonKeeper.Toml.Assembly
import DaemonKeeper.Toml.Document
import DaemonKeeper.Toml.Quotation
import DaemonKeeper.Toml.Scalar
import DaemonKeeper.Toml.Value
import DaemonKeeper.Word
