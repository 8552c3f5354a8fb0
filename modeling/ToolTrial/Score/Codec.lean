import ToolTrial.Json.Decode
import ToolTrial.Score.Scorecard

/-!
Summaries and comparisons as documents.  A comparison is written as one object: its arms, a flag
that says whether there is enough data, a status, and the members that go with the status.  The
flag must agree with the status when such an object is read.
-/

set_option autoImplicit false
set_option relaxedAutoImplicit false

namespace ToolTrial

open Json (Decoder DecodeError Member Record)

namespace ConditionSummary

def toJson (s : ConditionSummary) : Json :=
  let average := Json.ofOption Json.ofFloat
  .object [("condition_id", .text s.conditionId), ("condition_name", .text s.conditionName),
    ("tools_enabled", .bool s.toolsEnabled), ("run_count", Json.ofNat s.runCount),
    ("succeeded_runs", Json.ofNat s.succeededRuns),
    ("compile_passed_runs", Json.ofNat s.compilePassedRuns),
    ("tests_passed_runs", Json.ofNat s.testsPassedRuns),
    ("success_rate", Json.ofFloat s.successRate), ("compile_rate", Json.ofFloat s.compileRate),
    ("tests_rate", Json.ofFloat s.testsRate),
    ("average_duration_seconds", average s.averageDurationSeconds),
    ("roslyn_used_runs", Json.ofNat s.toolUsedRuns),
    ("roslyn_used_rate", Json.ofFloat s.toolUsedRate),
    ("total_tool_calls", Json.ofNat s.totalToolCalls),
    ("roslyn_tool_calls", Json.ofNat s.treatmentToolCalls),
    ("roslyn_call_share", Json.ofFloat s.toolCallShare),
    ("helpfulness_score_count", Json.ofNat s.helpfulnessCount),
    ("average_roslyn_helpfulness_score", average s.averageHelpfulness),
    ("average_input_tokens", average s.averageInputTokens),
    ("average_output_tokens", average s.averageOutputTokens),
    ("average_total_tokens", average s.averageTotalTokens)]

def members : List Member :=
  let average := Decoder.optional Decoder.float
  [.of "condition_id" Decoder.text, .of "condition_name" Decoder.text,
   .of "tools_enabled" Decoder.boolean, .of "run_count" Decoder.count,
   .of "succeeded_runs" Decoder.count, .of "compile_passed_runs" Decoder.count,
   .of "tests_passed_runs" Decoder.count, .of "success_rate" Decoder.float,
   .of "compile_rate" Decoder.float, .of "tests_rate" Decoder.float,
   .of "average_duration_seconds" average, .of "roslyn_used_runs" Decoder.count,
   .of "roslyn_used_rate" Decoder.float, .of "total_tool_calls" Decoder.count,
   .of "roslyn_tool_calls" Decoder.count, .of "roslyn_call_share" Decoder.float,
   .of "helpfulness_score_count" Decoder.count, .of "average_roslyn_helpfulness_score" average,
   .of "average_input_tokens" average, .of "average_output_tokens" average,
   .of "average_total_tokens" average]

def decode : Decoder ConditionSummary := fun j => do
  let r ← Record.read "ConditionSummary" members j
  return {
    conditionId := ← r.required "condition_id" Decoder.text
    conditionName := ← r.required "condition_name" Decoder.text
    toolsEnabled := ← r.required "tools_enabled" Decoder.boolean
    runCount := ← r.required "run_count" Decoder.count
    succeededRuns := ← r.required "succeeded_runs" Decoder.count
    compilePassedRuns := ← r.required "compile_passed_runs" Decoder.count
    testsPassedRuns := ← r.required "tests_passed_runs" Decoder.count
    successRate := ← r.required "success_rate" Decoder.float
    compileRate := ← r.required "compile_rate" Decoder.float
    testsRate := ← r.required "tests_rate" Decoder.float
    averageDurationSeconds := ← r.nullable "average_duration_seconds" Decoder.float
    toolUsedRuns := ← r.required "roslyn_used_runs" Decoder.count
    toolUsedRate := ← r.required "roslyn_used_rate" Decoder.float
    totalToolCalls := ← r.required "total_tool_calls" Decoder.count
    treatmentToolCalls := ← r.required "roslyn_tool_calls" Decoder.count
    toolCallShare := ← r.required "roslyn_call_share" Decoder.float
    helpfulnessCount := ← r.required "helpfulness_score_count" Decoder.count
    averageHelpfulness := ← r.nullable "average_roslyn_helpfulness_score" Decoder.float
    averageInputTokens := ← r.nullable "average_input_tokens" Decoder.float
    averageOutputTokens := ← r.nullable "average_output_tokens" Decoder.float
    averageTotalTokens := ← r.nullable "average_total_tokens" Decoder.float }

end ConditionSummary

namespace Deltas

def toMembers (d : Deltas) : List (String × Json) :=
  [("success_rate_delta", Json.ofFloat d.successRate),
   ("compile_rate_delta", Json.ofFloat d.compileRate),
   ("tests_rate_delta", Json.ofFloat d.testsRate),
   ("roslyn_used_rate_in_treatment", Json.ofFloat d.toolUsedRate),
   ("roslyn_call_share_in_treatment", Json.ofFloat d.toolCallShare),
   ("helpfulness_score_in_treatment", Json.ofOption Json.ofFloat d.helpfulness),
   ("total_tokens_delta", Json.ofOption Json.ofFloat d.totalTokens),
   ("total_tokens_ratio", Json.ofOption Json.ofFloat d.totalTokensRatio)]

def members : List Member :=
  [.of "success_rate_delta" Decoder.float, .of "compile_rate_delta" Decoder.float,
   .of "tests_rate_delta" Decoder.float, .of "roslyn_used_rate_in_treatment" Decoder.float,
   .of "roslyn_call_share_in_treatment" Decoder.float,
   .of "helpfulness_score_in_treatment" (Decoder.optional Decoder.float),
   .of "total_tokens_delta" (Decoder.optional Decoder.float),
   .of "total_tokens_ratio" (Decoder.optional Decoder.float)]

def ofMembers (given : List (String × Json)) : Except DecodeError Deltas := do
  let r ← Record.ofObject "ComparisonDeltas" members given
  return {
    successRate := ← r.required "success_rate_delta" Decoder.float
    compileRate := ← r.required "compile_rate_delta" Decoder.float
    testsRate := ← r.required "tests_rate_delta" Decoder.float
    toolUsedRate := ← r.required "roslyn_used_rate_in_treatment" Decoder.float
    toolCallShare := ← r.required "roslyn_call_share_in_treatment" Decoder.float
    helpfulness := ← r.omissible "helpfulness_score_in_treatment" Decoder.float
    totalTokens := ← r.omissible "total_tokens_delta" Decoder.float
    totalTokensRatio := ← r.omissible "total_tokens_ratio" Decoder.float }

end Deltas

namespace Insufficiency

def toMembers (d : Insufficiency) : List (String × Json) :=
  [("note", .text d.note),
   ("control_success_rate", Json.ofOption Json.ofFloat d.controlSuccessRate),
   ("treatment_success_rate", Json.ofOption Json.ofFloat d.treatmentSuccessRate),
   ("roslyn_used_rate_in_treatment", Json.ofOption Json.ofFloat d.treatmentToolUsedRate)]

def members : List Member :=
  [.of "note" Decoder.text, .of "control_success_rate" (Decoder.optional Decoder.float),
   .of "treatment_success_rate" (Decoder.optional Decoder.float),
   .of "roslyn_used_rate_in_treatment" (Decoder.optional Decoder.float)]

def ofMembers (given : List (String × Json)) : Except DecodeError Insufficiency := do
  let r ← Record.ofObject "InsufficientData" members given
  return {
    note := ← r.required "note" Decoder.text
    controlSuccessRate := ← r.omissible "control_success_rate" Decoder.float
    treatmentSuccessRate := ← r.omissible "treatment_success_rate" Decoder.float
    treatmentToolUsedRate := ← r.omissible "roslyn_used_rate_in_treatment" Decoder.float }

end Insufficiency

namespace Outcome

inductive Status
  | computed
  | insufficient
deriving DecidableEq, Repr

def Status.names : List (String × Status) :=
  [("computed", .computed), ("insufficient", .insufficient)]

def Status.name : Status → String
  | .computed => "computed"
  | .insufficient => "insufficient"

def status : Outcome → Status
  | .computed _ => .computed
  | .insufficient _ => .insufficient

/-- A status is given by its name or by its place in the list of names. -/
def Status.decode : Decoder Status
  | .text name =>
    match Status.names.lookup name with
    | some status => .ok status
    | none => .error (.unknownVariant name (Status.names.map (·.1)))
  | .integer n =>
    if n < 0 then .error (.wrongType (.integer n) "variant identifier")
    else match Status.names[n.toNat]? with
      | some (_, status) => .ok status
      | none => .error (.outOfRange n "variant index 0 <= i < 2")
  | j => .error (.wrongType j "variant identifier")

/-- The status and what goes with it. -/
def toMembers (o : Outcome) : List (String × Json) :=
  ("status", .text o.status.name) ::
    match o with
    | .computed deltas => deltas.toMembers
    | .insufficient data => data.toMembers

def ofMembers (given : List (String × Json)) : Except DecodeError Outcome := do
  match Json.member? "status" given with
  | none => throw (.missingMember "status")
  | some j =>
    match ← Status.decode j with
    | .computed => return .computed (← Deltas.ofMembers given)
    | .insufficient => return .insufficient (← Insufficiency.ofMembers given)

end Outcome

namespace Comparison

def toJson (c : Comparison) : Json :=
  .object ([("control_condition_id", Json.ofOption .text c.controlId),
      ("treatment_condition_id", Json.ofOption .text c.treatmentId),
      ("control_runs", Json.ofNat c.controlRuns), ("treatment_runs", Json.ofNat c.treatmentRuns),
      ("sufficient_data", .bool c.sufficientData)] ++ c.outcome.toMembers)

def members : List Member :=
  [.of "control_condition_id" (Decoder.optional Decoder.text),
   .of "treatment_condition_id" (Decoder.optional Decoder.text),
   .of "control_runs" Decoder.count, .of "treatment_runs" Decoder.count,
   .of "sufficient_data" Decoder.boolean]

/-- The arms and the flag are looked at before the outcome, and the flag is compared last. -/
def decode : Decoder Comparison
  | .object given => do
    let r ← Record.ofObject "ComparisonDoc" members given
    let controlId ← r.omissible "control_condition_id" Decoder.text
    let treatmentId ← r.omissible "treatment_condition_id" Decoder.text
    let controlRuns ← r.required "control_runs" Decoder.count
    let treatmentRuns ← r.required "treatment_runs" Decoder.count
    let flag ← r.required "sufficient_data" Decoder.boolean
    let outcome ← Outcome.ofMembers given
    let comparison : Comparison := ⟨controlId, treatmentId, controlRuns, treatmentRuns, outcome⟩
    if comparison.sufficientData = flag then return comparison else throw (.contradiction flag)
  | j => .error (.wrongType j "struct ComparisonDoc")

end Comparison

namespace TaskComparison

def toJson (t : TaskComparison) : Json :=
  .object [("task_id", .text t.taskId), ("comparison", t.comparison.toJson)]

def members : List Member :=
  [.of "task_id" Decoder.text, .of "comparison" Comparison.decode]

def decode : Decoder TaskComparison := fun j => do
  let r ← Record.read "TaskComparison" members j
  return {
    taskId := ← r.required "task_id" Decoder.text
    comparison := ← r.required "comparison" Comparison.decode }

end TaskComparison

namespace Scorecard

def toJson (s : Scorecard) : Json :=
  .object [("condition_summaries", .array (s.summaries.map ConditionSummary.toJson)),
    ("primary_comparison", s.primary.toJson),
    ("task_comparisons", .array (s.byTask.map TaskComparison.toJson))]

end Scorecard
end ToolTrial
