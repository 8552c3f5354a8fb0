import ToolTrial.Score.Comparison

/-!
The scorecard of an experiment: every arm summed up, the first control arm compared with the first
treatment arm, and the same comparison task by task.
-/

set_option autoImplicit false
set_option relaxedAutoImplicit false

namespace ToolTrial

structure Scorecard where
  summaries : List ConditionSummary
  primary : Comparison
  byTask : List TaskComparison
deriving DecidableEq

namespace Scorecard

def runsOf (c : Condition) (runs : List Run) : List Run :=
  runs.filter fun r => Identifier.same r.conditionId c.id

def runsFor (t : Task) (runs : List Run) : List Run :=
  runs.filter fun r => Identifier.same r.taskId t.id

/-- The comparison of the primary arms over the runs of one task. -/
def compareTask (m : Manifest) (runs : List Run) (t : Task) : TaskComparison :=
  let tooling := Tooling.ofList m.toolNameStarts
  let summary (c : Condition) : ConditionSummary :=
    ConditionSummary.ofRuns c tooling (runsFor t (runsOf c runs))
  ⟨t.id, Comparison.of (m.primaryControl?.map summary) (m.primaryTreatment?.map summary)⟩

def ofRuns (m : Manifest) (runs : List Run) : Scorecard :=
  let tooling := Tooling.ofList m.toolNameStarts
  let summaries := m.conditions.map fun c => ConditionSummary.ofRuns c tooling (runsOf c runs)
  let summaryOf (c : Condition) : Option ConditionSummary :=
    summaries.find? fun s => Identifier.same s.conditionId c.id
  { summaries := summaries
    primary := Comparison.of (m.primaryControl?.bind summaryOf) (m.primaryTreatment?.bind summaryOf)
    byTask := m.tasks.map (compareTask m runs) }

end Scorecard
end ToolTrial
