import ToolTrial.Gate
import ToolTrial.Proofs.Document
import ToolTrial.Proofs.ManifestDocument

/-!
The document of a gate's report.  It stands for that report and is read back from its text, provided
that its counts are such as a document can carry.
-/

set_option autoImplicit false
set_option relaxedAutoImplicit false

namespace ToolTrial

open Json (Decoder Member Record Readable)
open Json.Decoder
open Json.Record (takes_of)

namespace GateReport

structure Countable (r : GateReport) : Prop where
  errors : r.runErrorCount < UInt64.size
  warnings : r.runWarningCount < UInt64.size

private def given (r : GateReport) : List (String × Json) :=
  [("experiment_id", .text r.experimentId), ("generated_at", .text r.generatedAt),
    ("manifest_valid", .bool r.manifestValid), ("runs_valid", .bool r.runsValid),
    ("sufficient_data", .bool r.sufficientData),
    ("fail_on_run_warnings", .bool r.failOnRunWarnings), ("gate_passed", .bool r.gatePassed),
    ("run_validation_error_count", Json.ofNat r.runErrorCount),
    ("run_validation_warning_count", Json.ofNat r.runWarningCount),
    ("notes", Json.ofTexts r.notes),
    ("manifest_validation_path", r.manifestReportPath.toJson),
    ("run_validation_path", r.runReportPath.toJson), ("score_path", r.scorePath.toJson),
    ("summary_path", r.summaryPath.toJson)]

private theorem distinct_given (r : GateReport) : ((given r).map Prod.fst).Nodup := by
  simp [given]

theorem decode_toJson {r : GateReport} (h : r.Countable) : decode r.toJson = .ok r := by
  have errors : count (Json.ofNat r.runErrorCount) = .ok r.runErrorCount :=
    natural_ofNat "usize" h.errors
  have warnings : count (Json.ofNat r.runWarningCount) = .ok r.runWarningCount :=
    natural_ofNat "usize" h.warnings
  obtain ⟨read, opened, values⟩ : ∃ read, Record.read "GateReport" members r.toJson = .ok read ∧
      read.values = given r := by
    refine Record.read_object _ ?_ (distinct_given r)
    simp only [List.forall_mem_cons]
    exact ⟨takes_of rfl rfl, takes_of rfl rfl, takes_of rfl rfl, takes_of rfl rfl, takes_of rfl rfl,
      takes_of rfl rfl, takes_of rfl rfl, takes_of rfl errors, takes_of rfl warnings,
      takes_of rfl (list_ofTexts _), takes_of rfl rfl, takes_of rfl rfl, takes_of rfl rfl,
      takes_of rfl rfl, by simp⟩
  have required {α : Type} {name : String} {decode : Decoder α} {j : Json} {a : α}
      (found : Json.member? name (given r) = some j) (decoded : decode j = .ok a) :
      read.required name decode = .ok a :=
    Record.required_eq_ok (values ▸ found) decoded
  simp only [decode, bind_eq_ok_iff, pure_eq_ok_iff]
  exact ⟨read, opened, r.experimentId, required rfl rfl, r.generatedAt, required rfl rfl,
    r.manifestValid, required rfl rfl, r.runsValid, required rfl rfl, r.sufficientData,
    required rfl rfl, r.failOnRunWarnings, required rfl rfl, r.gatePassed, required rfl rfl,
    r.runErrorCount, required rfl errors, r.runWarningCount, required rfl warnings, r.notes,
    required rfl (list_ofTexts _), r.manifestReportPath, required rfl rfl, r.runReportPath,
    required rfl rfl, r.scorePath, required rfl rfl, r.summaryPath, required rfl rfl, rfl⟩

theorem readable_toJson {P : Float → Prop} {depth : Nat} {r : GateReport} (h : r.Countable) :
    Readable P (depth + 2) r.toJson := by
  apply Readable.object (distinct_given r)
  simp only [given, List.forall_mem_cons]
  exact ⟨.text _, .text _, .bool _, .bool _, .bool _,
    .bool _, .bool _, Json.readable_ofNat h.errors,
    Json.readable_ofNat h.warnings, Json.readable_ofTexts _, .text _, .text _, .text _, .text _,
    by simp⟩

end GateReport
end ToolTrial
