import ToolTrial.Check.Runs
import ToolTrial.Json.Decode

/-!
Issues and the result of a check of runs as documents.
-/

set_option autoImplicit false
set_option relaxedAutoImplicit false

namespace ToolTrial

open Json (Decoder DecodeError Member Record)

namespace Severity

def names : List (String × Severity) :=
  [("error", .error), ("warning", .warning)]

def name : Severity → String
  | .error => "error"
  | .warning => "warning"

end Severity

namespace Scope

def names : List (String × Scope) :=
  [("experiment", .experiment), ("condition", .condition), ("task", .task), ("run", .run)]

def name : Scope → String
  | .experiment => "experiment"
  | .condition => "condition"
  | .task => "task"
  | .run => "run"

end Scope

namespace Issue

def toJson (i : Issue) : Json :=
  .object [("severity", .text i.severity.name), ("scope", .text i.scope.name), ("id", .text i.id),
    ("message", .text i.message)]

def members : List Member :=
  [.of "severity" (Decoder.oneOf Severity.names), .of "scope" (Decoder.oneOf Scope.names),
   .of "id" Decoder.text, .of "message" Decoder.text]

def decode : Decoder Issue := fun j => do
  let r ← Record.read "ValidationIssue" members j
  return {
    severity := ← r.required "severity" (Decoder.oneOf Severity.names)
    scope := ← r.required "scope" (Decoder.oneOf Scope.names)
    id := ← r.required "id" Decoder.text
    message := ← r.required "message" Decoder.text }

def listToJson (issues : List Issue) : Json := .array (issues.map toJson)

end Issue

namespace RunValidation

/-- The members of a check as a part of a larger document. -/
def toMembers (v : RunValidation) : List (String × Json) :=
  [("valid", .bool v.valid), ("total_runs", Json.ofNat v.totalRuns),
   ("expected_runs", Json.ofNat v.expectedRuns), ("issue_count", Json.ofNat v.issueCount),
   ("error_count", Json.ofNat v.errorCount), ("warning_count", Json.ofNat v.warningCount),
   ("contaminated_control_runs", Json.ofNat v.contaminatedControlRuns),
   ("treatment_runs_without_tool_offered", Json.ofNat v.treatmentRunsWithoutToolOffered),
   ("treatment_runs_without_tool_usage", Json.ofNat v.treatmentRunsWithoutToolUsage),
   ("issues", Issue.listToJson v.issues)]

def toJson (v : RunValidation) : Json := .object v.toMembers

def members : List Member :=
  [.of "valid" Decoder.boolean, .of "total_runs" Decoder.count, .of "expected_runs" Decoder.count,
   .of "issue_count" Decoder.count, .of "error_count" Decoder.count,
   .of "warning_count" Decoder.count, .of "contaminated_control_runs" Decoder.count,
   .of "treatment_runs_without_tool_offered" Decoder.count,
   .of "treatment_runs_without_tool_usage" Decoder.count,
   .of "issues" (Decoder.list Issue.decode)]

def ofMembers (given : List (String × Json)) : Except DecodeError RunValidation := do
  let r ← Record.ofObject "RunValidation" members given
  return {
    valid := ← r.required "valid" Decoder.boolean
    totalRuns := ← r.required "total_runs" Decoder.count
    expectedRuns := ← r.required "expected_runs" Decoder.count
    issueCount := ← r.required "issue_count" Decoder.count
    errorCount := ← r.required "error_count" Decoder.count
    warningCount := ← r.required "warning_count" Decoder.count
    contaminatedControlRuns := ← r.required "contaminated_control_runs" Decoder.count
    treatmentRunsWithoutToolOffered :=
      ← r.required "treatment_runs_without_tool_offered" Decoder.count
    treatmentRunsWithoutToolUsage :=
      ← r.required "treatment_runs_without_tool_usage" Decoder.count
    issues := ← r.required "issues" (Decoder.list Issue.decode) }

end RunValidation
end ToolTrial
