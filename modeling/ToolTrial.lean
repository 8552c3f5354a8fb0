import ToolTrial.Cancellation
import ToolTrial.Check.Codec
import ToolTrial.Check.Manifest
import ToolTrial.Check.Runs
import ToolTrial.Command.Arguments
import ToolTrial.Command.Execution
import ToolTrial.Digest.Sha256
import ToolTrial.Disk.Access
import ToolTrial.Disk.Basic
import ToolTrial.Draft
import ToolTrial.Experiment.Codec
import ToolTrial.Experiment.Manifest
import ToolTrial.Experiment.Run
import ToolTrial.Failure
import ToolTrial.Gate
import ToolTrial.Identifier
import ToolTrial.Issue
import ToolTrial.Json.Basic
import ToolTrial.Json.Decode
import ToolTrial.Json.Reader
import ToolTrial.Json.Token
import ToolTrial.Json.Writer
import ToolTrial.Loading
import ToolTrial.Main
import ToolTrial.Number.Binary64
import ToolTrial.Number.Decimal
import ToolTrial.Number.Layout
import ToolTrial.Number.Literal
import ToolTrial.Number.Rounding
import ToolTrial.Path.Basic
import ToolTrial.Pattern.Basic
import ToolTrial.Pattern.Case
import ToolTrial.Pattern.Ranges
import ToolTrial.Pattern.Reader
import ToolTrial.Report.Basic
import ToolTrial.Report.Summary
import ToolTrial.Schema.Basic
import ToolTrial.Schema.Documents
import ToolTrial.Score.Codec
import ToolTrial.Score.Comparison
import ToolTrial.Score.Scorecard
import ToolTrial.Score.Summary
import ToolTrial.Settings.Basic
import ToolTrial.Stages
import ToolTrial.Store.Basic
import ToolTrial.Store.Documents
import ToolTrial.Store.Workspace
import ToolTrial.Text.Blank
import ToolTrial.Text.Fold
import ToolTrial.Toml.Basic
import ToolTrial.Toml.Reader
import ToolTrial.Tooling
import ToolTrial.Verdict
import ToolTrial.Worklist
import ToolTrial.Worklist.Codec
import ToolTrial.Proofs.Attempt
import ToolTrial.Proofs.Identifier
import ToolTrial.Proofs.Issue
import ToolTrial.Proofs.Manifest
import ToolTrial.Proofs.Loading
import ToolTrial.Proofs.Gate
import ToolTrial.Proofs.Replicates
import ToolTrial.Proofs.Completion
import ToolTrial.Proofs.Path
import ToolTrial.Proofs.Pattern
import ToolTrial.Proofs.Document
import ToolTrial.Proofs.Codec
import ToolTrial.Proofs.RunDocument
import ToolTrial.Proofs.Disk
import ToolTrial.Proofs.Access
import ToolTrial.Proofs.Documents
import ToolTrial.Proofs.Files
import ToolTrial.Proofs.Store
import ToolTrial.Proofs.Draft
import ToolTrial.Proofs.Drafting
import ToolTrial.Proofs.Filling
import ToolTrial.Proofs.Counting
import ToolTrial.Proofs.ToolUse
import ToolTrial.Proofs.Naming
import ToolTrial.Proofs.Retention
import ToolTrial.Proofs.Forcing
import ToolTrial.Proofs.Reordering
import ToolTrial.Proofs.DraftIssues
import ToolTrial.Proofs.Sharing
import ToolTrial.Proofs.Bench
import ToolTrial.Proofs.Writers
import ToolTrial.Proofs.Interleaving
import ToolTrial.Proofs.Reading
import ToolTrial.Proofs.WellFormed
import ToolTrial.Proofs.Acceptance
import ToolTrial.Proofs.ManifestDocument
import ToolTrial.Proofs.Rounding
import ToolTrial.Proofs.Reloading
import ToolTrial.Proofs.Renewal
import ToolTrial.Proofs.Repetition
import ToolTrial.Proofs.GateDocument
import ToolTrial.Proofs.Ending
import ToolTrial.Proofs.Receiving
import ToolTrial.Proofs.Outputs
import ToolTrial.Proofs.Leaving
import ToolTrial.Proofs.Accounting
import ToolTrial.Proofs.Agreement
import ToolTrial.Proofs.Literal
import ToolTrial.Proofs.Nearest
import ToolTrial.Proofs.Shortest
import ToolTrial.Proofs.FloatText
import ToolTrial.Proofs.ReportDocument
import ToolTrial.Proofs.ScoreDocument
import ToolTrial.Proofs.ScoreReloading
import ToolTrial.Proofs.Placing
import ToolTrial.Proofs.Exporting
import ToolTrial.Proofs.Removal
import ToolTrial.Proofs.Comparing
import ToolTrial.Proofs.Sufficiency
import ToolTrial.Proofs.Aggregation
import ToolTrial.Proofs.ToolNames
import ToolTrial.Proofs.Covering
import ToolTrial.Proofs.IdentifierIssues
import ToolTrial.Proofs.Rejection
import ToolTrial.Proofs.Framing
import ToolTrial.Proofs.FloatRounding
import ToolTrial.Proofs.FloatArithmetic
import ToolTrial.Proofs.FloatNearest
import ToolTrial.Proofs.Averaging
import ToolTrial.Proofs.SavedScore
import ToolTrial.Proofs.Tables
import ToolTrial.Proofs.ShownIssues
import ToolTrial.Proofs.Simulation
import ToolTrial.Proofs.Accidents
import ToolTrial.Proofs.Replacing
import ToolTrial.Proofs.Tree
import ToolTrial.Proofs.Directories
import ToolTrial.Proofs.Searching
import ToolTrial.Proofs.Families
import ToolTrial.Proofs.Confinement
import ToolTrial.Proofs.Arrangement
import ToolTrial.Proofs.Digest
import ToolTrial.Proofs.Duplicates
