import ToolTrial.Stages
import ToolTrial.Verdict

/-!
The gate: every stage in turn, a summary, and a verdict.  All stages run whatever the earlier ones
found; only a failure or a request to stop, which is looked for before each stage, ends the work
early.
-/

set_option autoImplicit false
set_option relaxedAutoImplicit false

namespace ToolTrial

/-- What a gate works on and where it leaves its reports. -/
structure GateOptions where
  manifestPath : Path
  runsDir : Path
  outDir : Path
  runFilePattern : Pattern
  failOnRunWarnings : Bool
  maxExportIssues : Nat

namespace Gate

def manifestReportName : String := "manifest_validation.json"

def runReportName : String := "run_validation.json"

def scoreName : String := "score.json"

def summaryName : String := "summary.md"

def gateReportName : String := "gate_report.json"

def reportPath (dir : Path) : Path := dir.child gateReportName

variable {m : Type → Type} [Monad m]

def checkpoint (stopped : m Bool) (stage : Stage) : Attempt m Unit := do
  let isStopped ← (stopped : m Bool)
  if isStopped then Attempt.refuse (.stopped stage.name)

/-- What the verdict of a gate depends on. -/
def findings (manifest : ManifestReport) (runs : RunReport) (score : ScoreReport)
    (failOnRunWarnings : Bool) : Findings where
  manifestValid := manifest.valid
  manifestErrorCount := manifest.errorCount
  runsValid := runs.validation.valid
  runErrorCount := runs.validation.errorCount
  runWarningCount := runs.validation.warningCount
  sufficientData := score.sufficientData
  insufficiencyNote := score.primary.note
  failOnRunWarnings := failOnRunWarnings

def report (options : GateOptions) (now : String) (manifest : ManifestReport) (runs : RunReport)
    (score : ScoreReport) : GateReport :=
  let verdict := (findings manifest runs score options.failOnRunWarnings).verdict
  { experimentId := manifest.experimentId
    generatedAt := now
    manifestValid := manifest.valid
    runsValid := runs.validation.valid
    sufficientData := score.sufficientData
    failOnRunWarnings := options.failOnRunWarnings
    gatePassed := verdict.gatePassed
    runErrorCount := runs.validation.errorCount
    runWarningCount := runs.validation.warningCount
    notes := verdict.notes
    manifestReportPath := options.outDir.child manifestReportName
    runReportPath := options.outDir.child runReportName
    scorePath := options.outDir.child scoreName
    summaryPath := options.outDir.child summaryName }

def run [FileSystem m] (store : Store m) (isThere : Path → m Bool) (stopped : m Bool)
    (options : GateOptions) : Attempt m GateReport := do
  let outDir := options.outDir
  checkpoint stopped .manifestLoad
  let loaded ← loadManifest store options.manifestPath
  checkpoint stopped .manifestValidation
  let manifestReport ← reportManifest store isThere loaded (outDir.child manifestReportName)
  checkpoint stopped .runLoad
  let runs ← loadRuns store options.runsDir options.runFilePattern
  checkpoint stopped .runValidation
  let runReport ← reportRuns store loaded.manifest runs (outDir.child runReportName)
  checkpoint stopped .scoring
  let scoreReport ← reportScore store loaded runs (outDir.child scoreName)
  checkpoint stopped .summaryExport
  Attempt.during .writingSummary
    (FileSystem.writeWhole (outDir.child summaryName)
      (Summary.render scoreReport runReport options.maxExportIssues))
  let now ← (FileSystem.timestamp : m String)
  let gateReport := report options now manifestReport runReport scoreReport
  checkpoint stopped .gateReport
  Attempt.during .writingGateReport (store.save (reportPath outDir) gateReport.toJson)
  return gateReport

end Gate
end ToolTrial
