import ToolTrial.Check.Codec
import ToolTrial.Experiment.Codec
import ToolTrial.Score.Codec
import ToolTrial.Worklist.Codec

/-!
Reports: what the stages leave behind, each with the path that it is saved at, and their documents.
-/

set_option autoImplicit false
set_option relaxedAutoImplicit false

namespace ToolTrial

open Json (Decoder DecodeError Member Record)

structure ManifestReport where
  experimentId : String
  valid : Bool
  issueCount : Nat
  errorCount : Nat
  warningCount : Nat
  issues : List Issue
  outputPath : Path
deriving DecidableEq, Repr

structure RunReport where
  validation : RunValidation
  outputPath : Path
deriving DecidableEq, Repr

/-- The report on a scorecard: when it was made and of which manifest. -/
structure ScoreReport where
  experimentId : String
  generatedAt : String
  manifestSha256 : String
  totalRuns : Nat
  sufficientData : Bool
  summaries : List ConditionSummary
  primary : Comparison
  byTask : List TaskComparison
  outputPath : Path
deriving DecidableEq

structure WorklistReport where
  worklist : Worklist
  outputPath : Path
deriving DecidableEq

/-- The report of the gate, and where the reports are that it rests on. -/
structure GateReport where
  experimentId : String
  generatedAt : String
  manifestValid : Bool
  runsValid : Bool
  sufficientData : Bool
  failOnRunWarnings : Bool
  gatePassed : Bool
  runErrorCount : Nat
  runWarningCount : Nat
  notes : List String
  manifestReportPath : Path
  runReportPath : Path
  scorePath : Path
  summaryPath : Path
deriving DecidableEq, Repr

namespace ManifestReport

def ofIssues (m : Manifest) (issues : List Issue) (out : Path) : ManifestReport where
  experimentId := m.experimentId
  valid := Issue.errorCount issues == 0
  issueCount := issues.length
  errorCount := Issue.errorCount issues
  warningCount := Issue.warningCount issues
  issues := issues
  outputPath := out

def toJson (r : ManifestReport) : Json :=
  .object [("experiment_id", .text r.experimentId), ("valid", .bool r.valid),
    ("issue_count", Json.ofNat r.issueCount), ("error_count", Json.ofNat r.errorCount),
    ("warning_count", Json.ofNat r.warningCount), ("issues", Issue.listToJson r.issues),
    ("output_path", r.outputPath.toJson)]

def members : List Member :=
  [.of "experiment_id" Decoder.text, .of "valid" Decoder.boolean, .of "issue_count" Decoder.count,
   .of "error_count" Decoder.count, .of "warning_count" Decoder.count,
   .of "issues" (Decoder.list Issue.decode), .of "output_path" Path.decode]

def decode : Decoder ManifestReport := fun j => do
  let r ← Record.read "ManifestValidationReport" members j
  return {
    experimentId := ← r.required "experiment_id" Decoder.text
    valid := ← r.required "valid" Decoder.boolean
    issueCount := ← r.required "issue_count" Decoder.count
    errorCount := ← r.required "error_count" Decoder.count
    warningCount := ← r.required "warning_count" Decoder.count
    issues := ← r.required "issues" (Decoder.list Issue.decode)
    outputPath := ← r.required "output_path" Path.decode }

end ManifestReport

/-- The member that the path of a report is read from, in reports that hold another document's
members beside it. -/
def outputPathMembers : List Member := [.of "output_path" Path.decode]

namespace RunReport

def toJson (r : RunReport) : Json :=
  .object (r.validation.toMembers ++ [("output_path", r.outputPath.toJson)])

/-- The path is looked at before the check. -/
def decode : Decoder RunReport
  | .object given => do
    let r ← Record.ofObject "RunValidationReport" outputPathMembers given
    let out ← r.required "output_path" Path.decode
    return ⟨← RunValidation.ofMembers given, out⟩
  | j => .error (.wrongType j "struct RunValidationReport")

end RunReport

namespace ScoreReport

def ofScorecard (m : Manifest) (sha256 generatedAt : String) (runs : List Run) (s : Scorecard)
    (out : Path) : ScoreReport where
  experimentId := m.experimentId
  generatedAt := generatedAt
  manifestSha256 := sha256
  totalRuns := runs.length
  sufficientData := s.primary.sufficientData
  summaries := s.summaries
  primary := s.primary
  byTask := s.byTask
  outputPath := out

def toJson (r : ScoreReport) : Json :=
  .object [("experiment_id", .text r.experimentId), ("generated_at", .text r.generatedAt),
    ("manifest_sha256", .text r.manifestSha256), ("total_runs", Json.ofNat r.totalRuns),
    ("sufficient_data", .bool r.sufficientData),
    ("condition_summaries", .array (r.summaries.map ConditionSummary.toJson)),
    ("primary_comparison", r.primary.toJson),
    ("task_comparisons", .array (r.byTask.map TaskComparison.toJson)),
    ("output_path", r.outputPath.toJson)]

def members : List Member :=
  [.of "experiment_id" Decoder.text, .of "generated_at" Decoder.text,
   .of "manifest_sha256" Decoder.text, .of "total_runs" Decoder.count,
   .of "sufficient_data" Decoder.boolean,
   .of "condition_summaries" (Decoder.list ConditionSummary.decode),
   .of "primary_comparison" Comparison.decode,
   .of "task_comparisons" (Decoder.list TaskComparison.decode), .of "output_path" Path.decode]

def decode : Decoder ScoreReport := fun j => do
  let r ← Record.read "ScoreReport" members j
  return {
    experimentId := ← r.required "experiment_id" Decoder.text
    generatedAt := ← r.required "generated_at" Decoder.text
    manifestSha256 := ← r.required "manifest_sha256" Decoder.text
    totalRuns := ← r.required "total_runs" Decoder.count
    sufficientData := ← r.required "sufficient_data" Decoder.boolean
    summaries := ← r.required "condition_summaries" (Decoder.list ConditionSummary.decode)
    primary := ← r.required "primary_comparison" Comparison.decode
    byTask := ← r.required "task_comparisons" (Decoder.list TaskComparison.decode)
    outputPath := ← r.required "output_path" Path.decode }

end ScoreReport

namespace WorklistReport

def toJson (r : WorklistReport) : Json :=
  .object (r.worklist.toMembers ++ [("output_path", r.outputPath.toJson)])

def decode : Decoder WorklistReport
  | .object given => do
    let r ← Record.ofObject "WorklistReport" outputPathMembers given
    let out ← r.required "output_path" Path.decode
    return ⟨← Worklist.ofMembers given, out⟩
  | j => .error (.wrongType j "struct WorklistReport")

end WorklistReport

namespace GateReport

def toJson (r : GateReport) : Json :=
  .object [("experiment_id", .text r.experimentId), ("generated_at", .text r.generatedAt),
    ("manifest_valid", .bool r.manifestValid), ("runs_valid", .bool r.runsValid),
    ("sufficient_data", .bool r.sufficientData),
    ("fail_on_run_warnings", .bool r.failOnRunWarnings), ("gate_passed", .bool r.gatePassed),
    ("run_validation_error_count", Json.ofNat r.runErrorCount),
    ("run_validation_warning_count", Json.ofNat r.runWarningCount),
    ("notes", Json.ofTexts r.notes),
    ("manifest_validation_path", r.manifestReportPath.toJson),
    ("run_validation_path", r.runReportPath.toJson), ("score_path", r.scorePath.toJson),
    ("summary_path", r.summaryPath.toJson)]

def members : List Member :=
  [.of "experiment_id" Decoder.text, .of "generated_at" Decoder.text,
   .of "manifest_valid" Decoder.boolean, .of "runs_valid" Decoder.boolean,
   .of "sufficient_data" Decoder.boolean, .of "fail_on_run_warnings" Decoder.boolean,
   .of "gate_passed" Decoder.boolean, .of "run_validation_error_count" Decoder.count,
   .of "run_validation_warning_count" Decoder.count, .of "notes" (Decoder.list Decoder.text),
   .of "manifest_validation_path" Path.decode, .of "run_validation_path" Path.decode,
   .of "score_path" Path.decode, .of "summary_path" Path.decode]

def decode : Decoder GateReport := fun j => do
  let r ← Record.read "GateReport" members j
  return {
    experimentId := ← r.required "experiment_id" Decoder.text
    generatedAt := ← r.required "generated_at" Decoder.text
    manifestValid := ← r.required "manifest_valid" Decoder.boolean
    runsValid := ← r.required "runs_valid" Decoder.boolean
    sufficientData := ← r.required "sufficient_data" Decoder.boolean
    failOnRunWarnings := ← r.required "fail_on_run_warnings" Decoder.boolean
    gatePassed := ← r.required "gate_passed" Decoder.boolean
    runErrorCount := ← r.required "run_validation_error_count" Decoder.count
    runWarningCount := ← r.required "run_validation_warning_count" Decoder.count
    notes := ← r.required "notes" (Decoder.list Decoder.text)
    manifestReportPath := ← r.required "manifest_validation_path" Path.decode
    runReportPath := ← r.required "run_validation_path" Path.decode
    scorePath := ← r.required "score_path" Path.decode
    summaryPath := ← r.required "summary_path" Path.decode }

end GateReport
end ToolTrial
