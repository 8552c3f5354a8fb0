import ToolTrial.Score.Summary

/-!
Comparing a control arm with a treatment arm.  A comparison is computed when both arms have runs;
otherwise it says what is missing and keeps the numbers that one arm alone has.
-/

set_option autoImplicit false
set_option relaxedAutoImplicit false

namespace ToolTrial

/-- Treatment less control, and the treatment's own use of its tools. -/
structure Deltas where
  successRate : Float
  compileRate : Float
  testsRate : Float
  toolUsedRate : Float
  toolCallShare : Float
  helpfulness : Option Float
  totalTokens : Option Float
  totalTokensRatio : Option Float
deriving DecidableEq

/-- Why there are no deltas, and the numbers of whichever arm has runs. -/
structure Insufficiency where
  note : String
  controlSuccessRate : Option Float
  treatmentSuccessRate : Option Float
  treatmentToolUsedRate : Option Float
deriving DecidableEq

inductive Outcome
  | computed (deltas : Deltas)
  | insufficient (data : Insufficiency)
deriving DecidableEq

/-- A comparison of two arms, of which either may be missing. -/
structure Comparison where
  controlId : Option String
  treatmentId : Option String
  controlRuns : Nat
  treatmentRuns : Nat
  outcome : Outcome
deriving DecidableEq

structure TaskComparison where
  taskId : String
  comparison : Comparison
deriving DecidableEq

namespace Comparison

def sufficientData (c : Comparison) : Bool :=
  match c.outcome with
  | .computed _ => true
  | .insufficient _ => false

def note (c : Comparison) : Option String :=
  match c.outcome with
  | .computed _ => none
  | .insufficient data => some data.note

def deltas? (c : Comparison) : Option Deltas :=
  match c.outcome with
  | .computed deltas => some deltas
  | .insufficient _ => none

def difference (control treatment : Option Float) : Option Float :=
  match control, treatment with
  | some c, some t => some (t - c)
  | _, _ => none

/-- The quotient of two optional numbers, if both are there and the lower one is positive. -/
def ratio (control treatment : Option Float) : Option Float :=
  match control, treatment with
  | some c, some t => if c > 0.0 then some (t / c) else none
  | _, _ => none

def deltasOf (control treatment : ConditionSummary) : Deltas where
  successRate := treatment.successRate - control.successRate
  compileRate := treatment.compileRate - control.compileRate
  testsRate := treatment.testsRate - control.testsRate
  toolUsedRate := treatment.toolUsedRate
  toolCallShare := treatment.toolCallShare
  helpfulness := treatment.averageHelpfulness
  totalTokens := difference control.averageTotalTokens treatment.averageTotalTokens
  totalTokensRatio := ratio control.averageTotalTokens treatment.averageTotalTokens

/-- An arm as notes name it: by the role that its tools give it. -/
def roleOf (s : ConditionSummary) : String :=
  (if s.toolsEnabled then "treatment " else "control ") ++ Text.quoted s.conditionId

/-- Why two arms cannot be compared: the undeclared ones, or else the ones without runs. -/
def noteOf : (control treatment : Option ConditionSummary) → String
  | none, none => "no control or treatment condition declared"
  | none, some _ => "no control condition declared"
  | some _, none => "no treatment condition declared"
  | some control, some treatment =>
    let empty := [control, treatment].filter fun s => s.runCount == 0
    "no runs recorded for " ++ Text.join " and " (empty.map roleOf) ++ "; collect more data"

def withRuns (s : Option ConditionSummary) : Option ConditionSummary :=
  s.filter fun s => 0 < s.runCount

def insufficiencyOf (control treatment : Option ConditionSummary) : Insufficiency where
  note := noteOf control treatment
  controlSuccessRate := (withRuns control).map (·.successRate)
  treatmentSuccessRate := (withRuns treatment).map (·.successRate)
  treatmentToolUsedRate := (withRuns treatment).map (·.toolUsedRate)

def of (control treatment : Option ConditionSummary) : Comparison where
  controlId := control.map (·.conditionId)
  treatmentId := treatment.map (·.conditionId)
  controlRuns := (control.map (·.runCount)).getD 0
  treatmentRuns := (treatment.map (·.runCount)).getD 0
  outcome :=
    match withRuns control, withRuns treatment with
    | some c, some t => .computed (deltasOf c t)
    | _, _ => .insufficient (insufficiencyOf control treatment)

end Comparison
end ToolTrial
