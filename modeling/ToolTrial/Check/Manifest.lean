import ToolTrial.Experiment.Manifest
import ToolTrial.Issue
import ToolTrial.Text.Blank

/-!
Checking a manifest.  `invariantFaults` lists what makes a manifest useless to every stage, so that
loading it fails; `issues` lists what a report says about one that could be loaded.
-/

set_option autoImplicit false
set_option relaxedAutoImplicit false

namespace ToolTrial.Manifest

inductive Kind
  | condition
  | task
deriving DecidableEq, Repr

def Kind.name : Kind → String
  | .condition => "condition"
  | .task => "task"

/-- A reason not to load a manifest. -/
inductive Fault
  | blankExperimentId
  | noConditions
  | noTasks
  | noRunsPerCell
  | noToolNameStart
  | duplicate (kind : Kind) (id : String)
  | unsafeId (kind : Kind) (id : String)
deriving DecidableEq, Repr

def Fault.message : Fault → String
  | .blankExperimentId => "experiment_id must be non-empty"
  | .noConditions => "conditions must be a non-empty array"
  | .noTasks => "tasks must be a non-empty array"
  | .noRunsPerCell => "runs_per_cell must be > 0"
  | .noToolNameStart => "tool_prefixes must contain a non-empty prefix"
  | .duplicate kind id => "duplicate " ++ kind.name ++ " id " ++ Text.quoted id
  | .unsafeId kind id =>
    kind.name ++ " id " ++ Text.quoted id ++ " must not contain path separators or '..'"

def when (present : Bool) (fault : Fault) : List Fault :=
  if present then [fault] else []

/-- What is wrong with the identifiers of one kind: repetitions first, then unsafe ones. -/
def idFaults (kind : Kind) (ids : List String) : List Fault :=
  (Identifier.repeated [] ids).map (.duplicate kind) ++
    (ids.filter fun id => !Identifier.fileSafe id).map (.unsafeId kind)

/-- No beginning of treatment tool names says anything. -/
def allStartsBlank (m : Manifest) : Bool :=
  m.toolNameStarts.all Text.allBlank

def invariantFaults (m : Manifest) : List Fault :=
  when (Text.allBlank m.experimentId) .blankExperimentId ++
    when m.conditions.isEmpty .noConditions ++
    when m.tasks.isEmpty .noTasks ++
    when (m.runsPerCell == 0) .noRunsPerCell ++
    when m.allStartsBlank .noToolNameStart ++
    idFaults .condition (m.conditions.map (·.id)) ++
    idFaults .task (m.tasks.map (·.id))

def experimentError (present : Bool) (message : String) : List Issue :=
  if present then [.error .experiment Identifier.unattributed message] else []

def experimentIssues (m : Manifest) : List Issue :=
  experimentError (Text.allBlank m.experimentId) "experiment_id must be non-empty" ++
    experimentError (m.runsPerCell == 0) "runs_per_cell must be > 0" ++
    experimentError m.allStartsBlank "tool_prefixes must contain at least one non-empty prefix" ++
    experimentError m.primaryControl?.isNone
      "no control condition (tools_enabled=false) declared" ++
    experimentError m.primaryTreatment?.isNone
      "no treatment condition (tools_enabled=true) declared" ++
    experimentError m.tasks.isEmpty "at least one task is required"

/-- What is wrong with the identifiers of conditions.  Blank ones are not compared. -/
def conditionIssues : (seen : List String) → List Condition → List Issue
  | _, [] => []
  | seen, c :: rest =>
    if Text.allBlank c.id then
      .error .condition Identifier.unattributed "condition id must be non-empty" ::
        conditionIssues seen rest
    else
      (if seen.contains (Identifier.key c.id) then
        [.error .condition c.id ("duplicate condition id " ++ Text.quoted c.id)] else []) ++
        conditionIssues (Identifier.key c.id :: seen) rest

def promptPath? (base : Path) (t : Task) : Option Path :=
  t.promptFile.map base.join

/-- What is wrong with a task that has an identifier, its repetition apart. -/
def taskIssues (base : Path) (exist : Path → Bool) (t : Task) : List Issue :=
  let about := "task " ++ Text.quoted t.id
  let error (present : Bool) (message : String) : List Issue :=
    if present then [.error .task t.id (about ++ message)] else []
  (if Text.allBlank t.title then [.warning .task t.id (about ++ " has no title")] else []) ++
    error (Text.allBlank t.repo) " is missing repo" ++
    error (Text.allBlank t.commit) " is missing commit" ++
    error (t.acceptanceChecks.all Text.allBlank) " has no acceptance checks" ++
    match promptPath? base t with
    | some p => error (!exist p) (" prompt file not found: " ++ p.text)
    | none => []

/-- What is wrong with the tasks.  Blank identifiers are not compared, and nothing else is said
about their tasks. -/
def tasksIssues (base : Path) (exist : Path → Bool) : (seen : List String) → List Task → List Issue
  | _, [] => []
  | seen, t :: rest =>
    if Text.allBlank t.id then
      .error .task Identifier.unattributed "task id must be non-empty" ::
        tasksIssues base exist seen rest
    else
      (if seen.contains (Identifier.key t.id) then
        [.error .task t.id ("duplicate task id " ++ Text.quoted t.id)] else []) ++
        taskIssues base exist t ++ tasksIssues base exist (Identifier.key t.id :: seen) rest

/-- Everything that a report says about a manifest: the experiment, its conditions, then its tasks,
each in order.  Prompt files are looked up from the base directory. -/
def issues (m : Manifest) (base : Path) (exist : Path → Bool) : List Issue :=
  m.experimentIssues ++ conditionIssues [] m.conditions ++ tasksIssues base exist [] m.tasks

/-- The files whose existence the issues of a manifest hang on. -/
def promptPaths (m : Manifest) (base : Path) : List Path :=
  m.tasks.filterMap (promptPath? base)

end ToolTrial.Manifest
