import StyleMonitor.Command
import StyleMonitor.Console
import StyleMonitor.Container.Image
import StyleMonitor.Container.Run
import StyleMonitor.Container.Script
import StyleMonitor.Coordinator.Analysis
import StyleMonitor.Coordinator.Journal
import StyleMonitor.Coordinator.Machine
import StyleMonitor.Coordinator.Slot
import StyleMonitor.Coordinator.Timeline
import StyleMonitor.Decimal
import StyleMonitor.Diagnostics
import StyleMonitor.Disk.AtomicWrite
import StyleMonitor.Disk.Calls
import StyleMonitor.Disk.Failure
import StyleMonitor.Disk.Session
import StyleMonitor.Disk.Tree
import StyleMonitor.Disk.Walk
import StyleMonitor.Exclusion
import StyleMonitor.Exclusion.Pattern
import StyleMonitor.FileFindings
import StyleMonitor.Finding
import StyleMonitor.Finding.Json
import StyleMonitor.Freshness
import StyleMonitor.Host
import StyleMonitor.Ignore.Glob
import StyleMonitor.Ignore.Rule
import StyleMonitor.Instant
import StyleMonitor.Invocation
import StyleMonitor.Invocation.Help
import StyleMonitor.Invocation.Reader
import StyleMonitor.Json.Decode
import StyleMonitor.Json.Node
import StyleMonitor.Json.Write
import StyleMonitor.Main
import StyleMonitor.Outcome
import StyleMonitor.Path
import StyleMonitor.Program
import StyleMonitor.Report
import StyleMonitor.Report.File
import StyleMonitor.Report.Line
import StyleMonitor.Rule
import StyleMonitor.Settings
import StyleMonitor.Settings.File
import StyleMonitor.Settings.Location
import StyleMonitor.Settings.Toml
import StyleMonitor.Severity
import StyleMonitor.Shell.Arithmetic
import StyleMonitor.Shell.Filter
import StyleMonitor.Shell.Machine
import StyleMonitor.Shell.Run
import StyleMonitor.Shell.Script
import StyleMonitor.Shell.Token
import StyleMonitor.Shell.Utility
import StyleMonitor.Shell.Word
import StyleMonitor.Text.Blank
import StyleMonitor.Text.Bytes
import StyleMonitor.Text.Fields
import StyleMonitor.Text.Lines
import StyleMonitor.Text.Order
import StyleMonitor.Text.Printable
import StyleMonitor.Text.Quoted
import StyleMonitor.Text.Readable
import StyleMonitor.Text.Rows
import StyleMonitor.Toml.Document
import StyleMonitor.Toml.Edit
import StyleMonitor.Toml.Layout
import StyleMonitor.Toml.Scalar
import StyleMonitor.Toml.Strings
import StyleMonitor.Toml.Tree
import StyleMonitor.Workspace
import StyleMonitor.Workspace.Sources
import StyleMonitor.Proofs.Coordinator.Moves
import StyleMonitor.Proofs.Coordinator.Slots
import StyleMonitor.Proofs.Coordinator.Timers
import StyleMonitor.Proofs.Coordinator.SingleFlight
import StyleMonitor.Proofs.Coordinator.Custody
import StyleMonitor.Proofs.Coordinator.Records
import StyleMonitor.Proofs.Coordinator.Answers
import StyleMonitor.Proofs.Coordinator.Bursts
import StyleMonitor.Proofs.Coordinator.Stranding
import StyleMonitor.Proofs.Coordinator.Publishing
import StyleMonitor.Proofs.Coordinator.Histories
import StyleMonitor.Proofs.Coordinator.Debounce
import StyleMonitor.Proofs.Coordinator.Effects
import StyleMonitor.Proofs.Coordinator.Fates
import StyleMonitor.Proofs.Coordinator.Discarding
import StyleMonitor.Proofs.Coordinator.Endings
import StyleMonitor.Proofs.Coordinator.Failures
import StyleMonitor.Proofs.Coordinator.Turns
import StyleMonitor.Proofs.Coordinator.Shutdown
import StyleMonitor.Proofs.Path
import StyleMonitor.Proofs.FileFindings
import StyleMonitor.Proofs.Text.Lines
import StyleMonitor.Proofs.Report.Accounts
import StyleMonitor.Proofs.Analysis.Run
import StyleMonitor.Proofs.Analysis.Publication
import StyleMonitor.Proofs.Analysis.Course
import StyleMonitor.Proofs.Analysis.Faults
import StyleMonitor.Proofs.Freshness.Table
import StyleMonitor.Proofs.Disk.Tree
import StyleMonitor.Proofs.Disk.Walk
import StyleMonitor.Proofs.Disk.Names
import StyleMonitor.Proofs.Disk.Calls
import StyleMonitor.Proofs.Disk.Directories
import StyleMonitor.Proofs.Disk.AtomicWrite
import StyleMonitor.Proofs.Freshness.Refinement
import StyleMonitor.Proofs.Disk.CrashSafety
import StyleMonitor.Proofs.Toml.Shape
import StyleMonitor.Proofs.Toml.Keys
import StyleMonitor.Proofs.Toml.Sound
import StyleMonitor.Proofs.Toml.Refill
import StyleMonitor.Proofs.Toml.Values
import StyleMonitor.Proofs.Toml.Blocks
import StyleMonitor.Proofs.Settings.Records
import StyleMonitor.Proofs.Settings.SetEnabled
import StyleMonitor.Proofs.Settings.CrashSafety
import StyleMonitor.Proofs.Coordinator.Pulls
import StyleMonitor.Proofs.Console.Check
import StyleMonitor.Proofs.Coordinator.Reports
import StyleMonitor.Proofs.Json.Compact
import StyleMonitor.Proofs.Finding.RoundTrip
import StyleMonitor.Proofs.Diagnostics.History
import StyleMonitor.Proofs.Report.Grammar
import StyleMonitor.Proofs.Exclusion.Expression
import StyleMonitor.Proofs.Disk.Frames
import StyleMonitor.Proofs.Freshness.Recording
import StyleMonitor.Proofs.Host.Commands
import StyleMonitor.Proofs.Disk.Removal
import StyleMonitor.Proofs.Disk.Absolute
import StyleMonitor.Proofs.Host.Reports
import StyleMonitor.Proofs.Host.Windows
import StyleMonitor.Proofs.Console.Status
import StyleMonitor.Proofs.Console.Refresh
import StyleMonitor.Proofs.Workspace.Containment
import StyleMonitor.Proofs.Report.Leading
import StyleMonitor.Proofs.Disk.Altered
import StyleMonitor.Proofs.Disk.Subtrees
import StyleMonitor.Proofs.Disk.Aftermath
import StyleMonitor.Proofs.Disk.FailedWrites
import StyleMonitor.Proofs.Diagnostics.Overlapping
import StyleMonitor.Proofs.Text.Capture
import StyleMonitor.Proofs.Host.Mounts
import StyleMonitor.Proofs.Report.TestDirectories
