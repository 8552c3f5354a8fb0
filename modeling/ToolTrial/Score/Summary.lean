import ToolTrial.Experiment.Manifest
import ToolTrial.Number.Binary64
import ToolTrial.Tooling

/-!
The summary of one arm: counts over its runs, rates, which are zero where there is nothing to count,
and averages, which are absent where there is nothing to average.
-/

set_option autoImplicit false
set_option relaxedAutoImplicit false

namespace ToolTrial

/-- What the runs of one arm add up to.  A tool call counts as used when it calls a treatment tool.
-/
structure ConditionSummary where
  conditionId : String
  conditionName : String
  toolsEnabled : Bool
  runCount : Nat
  succeededRuns : Nat
  compilePassedRuns : Nat
  testsPassedRuns : Nat
  successRate : Float
  compileRate : Float
  testsRate : Float
  averageDurationSeconds : Option Float
  toolUsedRuns : Nat
  toolUsedRate : Float
  totalToolCalls : Nat
  treatmentToolCalls : Nat
  toolCallShare : Float
  helpfulnessCount : Nat
  averageHelpfulness : Option Float
  averageInputTokens : Option Float
  averageOutputTokens : Option Float
  averageTotalTokens : Option Float
deriving DecidableEq

namespace ConditionSummary

/-- A count as a share of a total; of nothing it is zero. -/
def rate (count total : Nat) : Float :=
  if total = 0 then 0.0 else Number.ofNat count / Number.ofNat total

/-- The sum of values from the left, divided by their number. -/
def mean (values : List Float) : Option Float :=
  if values.isEmpty then none
  else some (values.foldl (· + ·) 0.0 / Number.ofNat values.length)

/-- The average of a count over the runs that have it. -/
def meanCount (count : Run → Option Nat) (runs : List Run) : Option Float :=
  mean ((runs.filterMap count).map Number.ofNat)

def scores (runs : List Run) : List Int :=
  (runs.filterMap Run.helpfulness).filter Run.isScore

def total (count : Run → Nat) (runs : List Run) : Nat :=
  runs.foldr (fun r n => count r + n) 0

def ofRuns (c : Condition) (t : Tooling) (runs : List Run) : ConditionSummary :=
  let runCount := runs.length
  let succeeded := runs.countP (·.succeeded)
  let compiled := runs.countP (·.compilePassed)
  let tested := runs.countP (·.testsPassed)
  let used := runs.countP t.wasUsed
  let calls := total (·.toolCalls.length) runs
  let treatmentCalls := total (fun r => (t.treatmentCalls r).length) runs
  let scores := scores runs
  { conditionId := c.id
    conditionName := c.name
    toolsEnabled := c.toolsEnabled
    runCount := runCount
    succeededRuns := succeeded
    compilePassedRuns := compiled
    testsPassedRuns := tested
    successRate := rate succeeded runCount
    compileRate := rate compiled runCount
    testsRate := rate tested runCount
    averageDurationSeconds := mean (runs.map (·.durationSeconds))
    toolUsedRuns := used
    toolUsedRate := rate used runCount
    totalToolCalls := calls
    treatmentToolCalls := treatmentCalls
    toolCallShare := rate treatmentCalls calls
    helpfulnessCount := scores.length
    averageHelpfulness := mean (scores.map Number.ofInt)
    averageInputTokens := meanCount (fun r => r.tokenUsage.bind (·.input)) runs
    averageOutputTokens := meanCount (fun r => r.tokenUsage.bind (·.output)) runs
    averageTotalTokens := meanCount (fun r => r.tokenUsage.bind (·.effectiveTotal)) runs }

end ConditionSummary
end ToolTrial
