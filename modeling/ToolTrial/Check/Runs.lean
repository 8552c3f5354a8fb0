import ToolTrial.Experiment.Manifest
import ToolTrial.Issue
import ToolTrial.Tooling

/-!
Checking runs against their manifest.  Every run is looked at together with the runs before it,
which decide whether its identifier or its place in a cell is taken; the counters are counts of
runs.
-/

set_option autoImplicit false
set_option relaxedAutoImplicit false

namespace ToolTrial

structure RunValidation where
  valid : Bool
  totalRuns : Nat
  expectedRuns : Nat
  issueCount : Nat
  errorCount : Nat
  warningCount : Nat
  contaminatedControlRuns : Nat
  treatmentRunsWithoutToolOffered : Nat
  treatmentRunsWithoutToolUsage : Nat
  issues : List Issue
deriving DecidableEq, Repr

namespace RunValidation

/-- The place that a run takes in a cell of the manifest: the keys of its task and its condition,
and its replicate number if that is positive. -/
def place? (m : Manifest) (r : Run) : Option (String × String × Int) :=
  match r.replicate with
  | none => none
  | some n =>
    if 0 < n && (m.condition? r.conditionId).isSome && (m.task? r.taskId).isSome then
      some (Identifier.key r.taskId, Identifier.key r.conditionId, n)
    else none

def idKey? (r : Run) : Option String :=
  if Text.allBlank r.runId then none else some (Identifier.key r.runId)

def idIssues (earlier : List Run) (r : Run) : List Issue :=
  match idKey? r with
  | none =>
    [.error .run Identifier.unattributed ("run for task " ++ Text.quoted r.taskId ++
      " / condition " ++ Text.quoted r.conditionId ++ " has an empty run_id")]
  | some key =>
    if (earlier.filterMap idKey?).contains key then
      [.error .run r.runId ("duplicate run_id " ++ Text.quoted r.runId)]
    else []

def referenceIssues (m : Manifest) (r : Run) : List Issue :=
  (if (m.condition? r.conditionId).isNone then
    [.error .run r.runId ("unknown condition_id " ++ Text.quoted r.conditionId)] else []) ++
    (if (m.task? r.taskId).isNone then
      [.error .run r.runId ("unknown task_id " ++ Text.quoted r.taskId)] else [])

def replicateIssues (m : Manifest) (earlier : List Run) (r : Run) : List Issue :=
  match r.replicate with
  | none => []
  | some n =>
    if n ≤ 0 then
      [.error .run r.runId ("replicate must be a positive integer (got " ++ toString n ++ ")")]
    else match place? m r with
      | some place =>
        if (earlier.filterMap (place? m)).contains place then
          [.warning .run r.runId ("replicate " ++ toString n ++ " is already used in cell (" ++
            r.taskId ++ ", " ++ r.conditionId ++ ")")]
        else []
      | none => []

/-- A run in a control arm that called a treatment tool. -/
def isContaminated (m : Manifest) (r : Run) : Bool :=
  match m.condition? r.conditionId with
  | some c => !c.toolsEnabled && (Tooling.ofList m.toolNameStarts).wasUsed r
  | none => false

def lacksOffer (m : Manifest) (r : Run) : Bool :=
  match m.condition? r.conditionId with
  | some c => c.toolsEnabled && !(Tooling.ofList m.toolNameStarts).wasOffered r
  | none => false

def lacksUsage (m : Manifest) (r : Run) : Bool :=
  match m.condition? r.conditionId with
  | some c => c.toolsEnabled && !(Tooling.ofList m.toolNameStarts).wasUsed r
  | none => false

/-- A sorted list of texts without repetitions. -/
def insertName (name : String) : List String → List String
  | [] => [name]
  | n :: rest =>
    if name = n then n :: rest
    else if name < n then name :: n :: rest
    else n :: insertName name rest

/-- The names of the treatment tools that a run called, sorted, each once. -/
def calledNames (m : Manifest) (r : Run) : List String :=
  ((Tooling.ofList m.toolNameStarts).treatmentCalls r).foldl
    (fun names call => insertName call.toolName names) []

def toolIssues (m : Manifest) (r : Run) : List Issue :=
  (if isContaminated m r then
    [.error .run r.runId ("condition contamination: control condition " ++
      Text.quoted r.conditionId ++ " called treatment tools [" ++
      Text.join ", " (calledNames m r) ++ "]")] else []) ++
    (if lacksOffer m r then
      [.warning .run r.runId ("treatment condition " ++ Text.quoted r.conditionId ++
        " did not offer any treatment tool")] else []) ++
    (if lacksUsage m r then
      [.warning .run r.runId ("treatment condition " ++ Text.quoted r.conditionId ++
        " made no treatment tool calls")] else [])

def scoreIssues (r : Run) : List Issue :=
  match r.helpfulness with
  | some score =>
    if Run.isScore score then []
    else [.error .run r.runId ("roslyn_helpfulness_score " ++ toString score ++
      " is outside the valid range " ++ toString Run.leastHelpfulness ++ ".." ++
      toString Run.greatestHelpfulness)]
  | none => []

def issuesOf (m : Manifest) (earlier : List Run) (r : Run) : List Issue :=
  idIssues earlier r ++ referenceIssues m r ++ replicateIssues m earlier r ++ toolIssues m r ++
    scoreIssues r

def issuesFrom (m : Manifest) : (earlier : List Run) → List Run → List Issue
  | _, [] => []
  | earlier, r :: rest => issuesOf m earlier r ++ issuesFrom m (r :: earlier) rest

/-- The warning that there are fewer runs than the manifest asks for. -/
def coverageIssues (m : Manifest) (runs : List Run) : List Issue :=
  if runs.length < m.expectedRuns then
    [.warning .experiment Identifier.unattributed ("observed run count " ++
      toString runs.length ++ " is below expected " ++ toString m.expectedRuns)]
  else []

def ofRuns (m : Manifest) (runs : List Run) : RunValidation :=
  let issues := issuesFrom m [] runs ++ coverageIssues m runs
  { valid := Issue.errorCount issues == 0
    totalRuns := runs.length
    expectedRuns := m.expectedRuns
    issueCount := issues.length
    errorCount := Issue.errorCount issues
    warningCount := Issue.warningCount issues
    contaminatedControlRuns := runs.countP (isContaminated m)
    treatmentRunsWithoutToolOffered := runs.countP (lacksOffer m)
    treatmentRunsWithoutToolUsage := runs.countP (lacksUsage m)
    issues := issues }

end RunValidation
end ToolTrial
