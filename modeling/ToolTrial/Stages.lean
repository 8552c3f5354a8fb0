import ToolTrial.Draft
import ToolTrial.Loading
import ToolTrial.Report.Summary

/-!
The stages of an evaluation.  Each works out a report, saves it, and gives it back.
-/

set_option autoImplicit false
set_option relaxedAutoImplicit false

namespace ToolTrial

variable {m : Type → Type} [Monad m]

def manifestIssues (isThere : Path → m Bool) (l : LoadedManifest) : m (List Issue) := do
  let found ← (l.manifest.promptPaths l.base).filterM isThere
  return l.manifest.issues l.base found.contains

def reportManifest (store : Store m) (isThere : Path → m Bool) (l : LoadedManifest) (out : Path) :
    Attempt m ManifestReport := do
  let issues ← (manifestIssues isThere l : m (List Issue))
  let report := ManifestReport.ofIssues l.manifest issues out
  Attempt.during .writingManifestReport (store.save out report.toJson)
  return report

def reportRuns (store : Store m) (manifest : Manifest) (runs : List Run) (out : Path) :
    Attempt m RunReport := do
  let report : RunReport := ⟨RunValidation.ofRuns manifest runs, out⟩
  Attempt.during .writingRunReport (store.save out report.toJson)
  return report

def reportScore [FileSystem m] (store : Store m) (l : LoadedManifest) (runs : List Run)
    (out : Path) : Attempt m ScoreReport := do
  let now ← (FileSystem.timestamp : m String)
  let report := ScoreReport.ofScorecard l.manifest l.sha256 now runs
    (Scorecard.ofRuns l.manifest runs) out
  Attempt.during .writingScoreReport (store.save out report.toJson)
  return report

def reportWorklist (store : Store m) (manifest : Manifest) (runs : List Run) (out : Path) :
    Attempt m WorklistReport := do
  let report : WorklistReport := ⟨Worklist.ofRuns manifest runs, out⟩
  Attempt.during .writingWorklist (store.save out report.toJson)
  return report

/-- The summary of two stored reports, written to the disk. -/
def exportSummary [FileSystem m] (store : Store m) (scorePath runReportPath : Path) (limit : Nat)
    (out : Path) : Attempt m Unit := do
  let score ← store.loadAs ScoreReport.decode scorePath
  let runs ← store.loadAs RunReport.decode runReportPath
  FileSystem.writeWhole out (Summary.render score runs limit)

end ToolTrial
