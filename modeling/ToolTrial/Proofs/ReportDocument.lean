import ToolTrial.Proofs.Document
import ToolTrial.Proofs.ManifestDocument
import ToolTrial.Proofs.RunDocument
import ToolTrial.Report.Basic

/-!
The documents of checks and worklists.  A report writes the members of what it reports beside its
own path, and each of the two is read past the members of the other.  Every number is read back that
its format can carry.
-/

set_option autoImplicit false
set_option relaxedAutoImplicit false

namespace ToolTrial

open Json (Decoder Member Readable Record)
open Json.Decoder
open Json.Record (takes_of)

namespace Json.Record

/-- Members that a record takes are read past members that it does not know. -/
theorem ofObject_between (name : String) {members : List Member}
    (before : List (String × Json)) {given after : List (String × Json)}
    (taken : ∀ e ∈ given, Takes members e.1 e.2)
    (distinct : (given.map Prod.fst).Nodup)
    (unknown : ∀ e ∈ before ++ after, (members.find? fun m => m.isCalled e.1) = none) :
    ∃ r, ofObject name members (before ++ given ++ after) = .ok r ∧ r.values = given := by
  have none (others : List (String × Json))
      (foreign : ∀ e ∈ others, (members.find? fun m => m.isCalled e.1) = none) :
      named members others = [] := by
    rw [named, List.filterMap_eq_nil_iff]
    intro e inside
    rw [foreign e inside, Option.map_none]
  have known : named members given = given := by
    refine (List.filterMap_congr (g := some) fun e inside => ?_).trans List.filterMap_some
    obtain ⟨m, found, named, -⟩ := taken e inside
    rw [found, Option.map_some, named]
  have values : named members (before ++ given ++ after) = given := by
    have apart := List.forall_mem_append.mp unknown
    have first := none before apart.1
    have last := none after apart.2
    rw [named] at first last known ⊢
    rw [List.filterMap_append, List.filterMap_append, first, last, known, List.nil_append,
      List.append_nil]
  have scanned : scan members [] (before ++ given ++ after) = .ok given := by
    refine (scan_eq_ok_iff []).mpr ⟨?_, by rwa [values], by simp, values.symm⟩
    intro e inside m found
    rw [List.append_assoc, List.mem_append, List.mem_append] at inside
    rcases inside with first | here | last
    · simp [unknown e (List.mem_append_left _ first)] at found
    · obtain ⟨m', found', -, good⟩ := taken e here
      obtain rfl : m' = m := Option.some.inj (found'.symm.trans found)
      exact good
    · simp [unknown e (List.mem_append_right _ last)] at found
  refine ⟨⟨name, members.map (·.name), given, false⟩, ?_, rfl⟩
  rw [ofObject, scanned]
  rfl

end Json.Record

/-- Numbers that a document can carry where a count is expected. -/
def AreCounts (counts : List Nat) : Prop :=
  ∀ n ∈ counts, n < UInt64.size

instance (counts : List Nat) : Decidable (AreCounts counts) :=
  inferInstanceAs (Decidable (∀ n ∈ counts, n < UInt64.size))

theorem count_ofNat {n : Nat} (small : n < UInt64.size) : count (Json.ofNat n) = .ok n :=
  natural_ofNat "usize" small

private theorem exists_outputPath (name : String) (others : List (String × Json)) (out : Path)
    (apart : ∀ e ∈ others, e.1 ≠ "output_path") :
    ∃ r, Record.ofObject name outputPathMembers (others ++ [("output_path", out.toJson)]) = .ok r ∧
      r.required "output_path" Path.decode = .ok out := by
  obtain ⟨r, read, values⟩ : ∃ r, Record.ofObject name outputPathMembers
      (others ++ [("output_path", out.toJson)] ++ []) = .ok r ∧
      r.values = [("output_path", out.toJson)] := by
    refine Record.ofObject_between name others ?_ (by simp) ?_
    · rw [List.forall_mem_singleton]
      exact takes_of rfl rfl
    · intro e inside
      rw [List.append_nil] at inside
      simp [outputPathMembers, Member.isCalled, Member.of, Ne.symm (apart e inside)]
  rw [List.append_nil] at read
  exact ⟨r, read, Record.required_eq_ok (values ▸ rfl) (Path.decode_toJson out)⟩

namespace Issue

private def given (i : Issue) : List (String × Json) :=
  [("severity", .text i.severity.name), ("scope", .text i.scope.name), ("id", .text i.id),
    ("message", .text i.message)]

private theorem severity_decode (s : Severity) :
    oneOf Severity.names (.text s.name) = .ok s := by
  cases s <;> rfl

private theorem scope_decode (s : Scope) : oneOf Scope.names (.text s.name) = .ok s := by
  cases s <;> rfl

theorem decode_toJson (i : Issue) : decode i.toJson = .ok i := by
  obtain ⟨r, read, values⟩ : ∃ r, Record.read "ValidationIssue" members i.toJson = .ok r ∧
      r.values = given i := by
    refine Record.read_object _ ?_ (by simp)
    simp only [List.forall_mem_cons]
    exact ⟨takes_of rfl (severity_decode _), takes_of rfl (scope_decode _), takes_of rfl rfl,
      takes_of rfl rfl, by simp⟩
  simp only [decode, bind_eq_ok_iff, pure_eq_ok_iff]
  refine ⟨r, read, i.severity, ?_, i.scope, ?_, i.id, ?_, i.message, ?_, rfl⟩
  · exact Record.required_eq_ok (values ▸ rfl) (severity_decode _)
  · exact Record.required_eq_ok (values ▸ rfl) (scope_decode _)
  · exact Record.required_eq_ok (values ▸ rfl) (text_text _)
  · exact Record.required_eq_ok (values ▸ rfl) (text_text _)

theorem list_decode (issues : List Issue) :
    list decode (listToJson issues) = .ok issues :=
  list_map fun i _ => decode_toJson i

theorem readable_listToJson {P : Float → Prop} {depth : Nat} (issues : List Issue) :
    Readable P (depth + 2) (listToJson issues) := by
  refine .array fun j member => ?_
  obtain ⟨i, -, rfl⟩ := List.mem_map.mp member
  refine Readable.object (by simp) ?_
  simp only [List.forall_mem_cons]
  exact ⟨.text _, .text _, .text _, .text _, by simp⟩

end Issue

namespace RunValidation

def Countable (v : RunValidation) : Prop :=
  AreCounts [v.totalRuns, v.expectedRuns, v.issueCount, v.errorCount, v.warningCount,
    v.contaminatedControlRuns, v.treatmentRunsWithoutToolOffered, v.treatmentRunsWithoutToolUsage]

instance (v : RunValidation) : Decidable v.Countable :=
  inferInstanceAs (Decidable (AreCounts _))

private theorem ofMembers_before {v : RunValidation} (h : v.Countable)
    {after : List (String × Json)}
    (unknown : ∀ e ∈ after, (members.find? fun m => m.isCalled e.1) = none) :
    ofMembers (v.toMembers ++ after) = .ok v := by
  simp only [Countable, AreCounts, List.forall_mem_cons] at h
  obtain ⟨total, expected, issues, errors, warnings, contaminated, offered, used, -⟩ := h
  obtain ⟨r, read, values⟩ : ∃ r, Record.ofObject "RunValidation" members
      (v.toMembers ++ after) = .ok r ∧ r.values = v.toMembers := by
    refine Record.ofObject_between _ [] ?_ (by simp) unknown
    simp only [List.forall_mem_cons]
    exact ⟨takes_of rfl rfl, takes_of rfl (count_ofNat total), takes_of rfl (count_ofNat expected),
      takes_of rfl (count_ofNat issues), takes_of rfl (count_ofNat errors),
      takes_of rfl (count_ofNat warnings), takes_of rfl (count_ofNat contaminated),
      takes_of rfl (count_ofNat offered), takes_of rfl (count_ofNat used),
      takes_of rfl (Issue.list_decode _), by simp⟩
  have required {α : Type} {name : String} {decode : Decoder α} {j : Json} {a : α}
      (found : Json.member? name v.toMembers = some j) (decoded : decode j = .ok a) :
      r.required name decode = .ok a :=
    Record.required_eq_ok (values ▸ found) decoded
  simp only [ofMembers, bind_eq_ok_iff, pure_eq_ok_iff]
  exact ⟨r, read, v.valid, required rfl rfl, v.totalRuns, required rfl (count_ofNat total),
    v.expectedRuns, required rfl (count_ofNat expected), v.issueCount,
    required rfl (count_ofNat issues), v.errorCount, required rfl (count_ofNat errors),
    v.warningCount, required rfl (count_ofNat warnings), v.contaminatedControlRuns,
    required rfl (count_ofNat contaminated), v.treatmentRunsWithoutToolOffered,
    required rfl (count_ofNat offered), v.treatmentRunsWithoutToolUsage,
    required rfl (count_ofNat used), v.issues, required rfl (Issue.list_decode _), rfl⟩

end RunValidation

namespace RunReport

theorem decode_toJson {r : RunReport} (h : r.validation.Countable) : decode r.toJson = .ok r := by
  obtain ⟨opened, read, path⟩ := exists_outputPath "RunValidationReport"
    r.validation.toMembers r.outputPath (by simp [RunValidation.toMembers])
  have checked : RunValidation.ofMembers
      (r.validation.toMembers ++ [("output_path", r.outputPath.toJson)]) = .ok r.validation := by
    apply RunValidation.ofMembers_before h
    rw [List.forall_mem_singleton]
    rfl
  simp only [decode, toJson, bind_eq_ok_iff, pure_eq_ok_iff]
  exact ⟨opened, read, r.outputPath, path, r.validation, checked, rfl⟩

theorem readable_toJson {P : Float → Prop} {depth : Nat} {r : RunReport}
    (h : r.validation.Countable) :
    Readable P (depth + 3) r.toJson := by
  simp only [RunValidation.Countable, AreCounts, List.forall_mem_cons] at h
  obtain ⟨total, expected, issues, errors, warnings, contaminated, offered, used, -⟩ := h
  refine Readable.object (by simp [RunValidation.toMembers]) ?_
  simp only [RunValidation.toMembers, List.cons_append, List.nil_append, List.forall_mem_cons]
  exact ⟨.bool _, Json.readable_ofNat total, Json.readable_ofNat expected,
    Json.readable_ofNat issues, Json.readable_ofNat errors, Json.readable_ofNat warnings,
    Json.readable_ofNat contaminated, Json.readable_ofNat offered, Json.readable_ofNat used,
    Issue.readable_listToJson _, .text _, by simp⟩

end RunReport

namespace ManifestReport

def Countable (r : ManifestReport) : Prop :=
  AreCounts [r.issueCount, r.errorCount, r.warningCount]

private def given (r : ManifestReport) : List (String × Json) :=
  [("experiment_id", .text r.experimentId), ("valid", .bool r.valid),
    ("issue_count", Json.ofNat r.issueCount), ("error_count", Json.ofNat r.errorCount),
    ("warning_count", Json.ofNat r.warningCount), ("issues", Issue.listToJson r.issues),
    ("output_path", r.outputPath.toJson)]

theorem decode_toJson {r : ManifestReport} (h : r.Countable) : decode r.toJson = .ok r := by
  simp only [Countable, AreCounts, List.forall_mem_cons] at h
  obtain ⟨issues, errors, warnings, -⟩ := h
  obtain ⟨opened, read, values⟩ : ∃ opened,
      Record.read "ManifestValidationReport" members r.toJson = .ok opened ∧
      opened.values = given r := by
    refine Record.read_object _ ?_ (by simp)
    simp only [List.forall_mem_cons]
    exact ⟨takes_of rfl rfl, takes_of rfl rfl, takes_of rfl (count_ofNat issues),
      takes_of rfl (count_ofNat errors), takes_of rfl (count_ofNat warnings),
      takes_of rfl (Issue.list_decode _), takes_of rfl rfl, by simp⟩
  simp only [decode, bind_eq_ok_iff, pure_eq_ok_iff]
  refine ⟨opened, read, r.experimentId, ?_, r.valid, ?_, r.issueCount, ?_, r.errorCount, ?_,
    r.warningCount, ?_, r.issues, ?_, r.outputPath, ?_, rfl⟩
  · exact Record.required_eq_ok (values ▸ rfl) (text_text _)
  · exact Record.required_eq_ok (values ▸ rfl) (boolean_bool _)
  · exact Record.required_eq_ok (values ▸ rfl) (count_ofNat issues)
  · exact Record.required_eq_ok (values ▸ rfl) (count_ofNat errors)
  · exact Record.required_eq_ok (values ▸ rfl) (count_ofNat warnings)
  · exact Record.required_eq_ok (values ▸ rfl) (Issue.list_decode _)
  · exact Record.required_eq_ok (values ▸ rfl) (Path.decode_toJson _)

end ManifestReport

namespace Cell

structure Encodable (c : Cell) : Prop where
  counts : AreCounts [c.targetRuns, c.observedRuns, c.missingRuns]
  replicates : ∀ n ∈ c.usedReplicates, IsSigned n

private def given (c : Cell) : List (String × Json) :=
  [("task_id", .text c.taskId), ("condition_id", .text c.conditionId),
    ("target_runs", Json.ofNat c.targetRuns), ("observed_runs", Json.ofNat c.observedRuns),
    ("missing_runs", Json.ofNat c.missingRuns),
    ("used_replicates", .array (c.usedReplicates.map .integer))]

theorem decode_toJson {c : Cell} (h : c.Encodable) : decode c.toJson = .ok c := by
  obtain ⟨target, observed, missing, -⟩ := by
    simpa only [AreCounts, List.forall_mem_cons] using h.counts
  have replicates : list signed (.array (c.usedReplicates.map .integer)) = .ok c.usedReplicates :=
    list_map fun n used => signed_integer (h.replicates n used)
  obtain ⟨r, read, values⟩ : ∃ r, Record.read "WorklistCell" members c.toJson = .ok r ∧
      r.values = given c := by
    refine Record.read_object _ ?_ (by simp)
    simp only [List.forall_mem_cons]
    exact ⟨takes_of rfl rfl, takes_of rfl rfl, takes_of rfl (count_ofNat target),
      takes_of rfl (count_ofNat observed), takes_of rfl (count_ofNat missing),
      takes_of rfl replicates, by simp⟩
  simp only [decode, bind_eq_ok_iff, pure_eq_ok_iff]
  refine ⟨r, read, c.taskId, ?_, c.conditionId, ?_, c.targetRuns, ?_, c.observedRuns, ?_,
    c.missingRuns, ?_, c.usedReplicates, ?_, rfl⟩
  · exact Record.required_eq_ok (values ▸ rfl) (text_text _)
  · exact Record.required_eq_ok (values ▸ rfl) (text_text _)
  · exact Record.required_eq_ok (values ▸ rfl) (count_ofNat target)
  · exact Record.required_eq_ok (values ▸ rfl) (count_ofNat observed)
  · exact Record.required_eq_ok (values ▸ rfl) (count_ofNat missing)
  · exact Record.required_eq_ok (values ▸ rfl) replicates

end Cell

namespace PendingRun

private def given (p : PendingRun) : List (String × Json) :=
  [("run_id", .text p.runId), ("task_id", .text p.taskId), ("condition_id", .text p.conditionId),
    ("replicate", .integer p.replicate)]

theorem decode_toJson {p : PendingRun} (h : IsSigned p.replicate) : decode p.toJson = .ok p := by
  obtain ⟨r, read, values⟩ : ∃ r, Record.read "PendingRun" members p.toJson = .ok r ∧
      r.values = given p := by
    refine Record.read_object _ ?_ (by simp)
    simp only [List.forall_mem_cons]
    exact ⟨takes_of rfl rfl, takes_of rfl rfl, takes_of rfl rfl, takes_of rfl (signed_integer h),
      by simp⟩
  simp only [decode, bind_eq_ok_iff, pure_eq_ok_iff]
  refine ⟨r, read, p.runId, ?_, p.taskId, ?_, p.conditionId, ?_, p.replicate, ?_, rfl⟩
  · exact Record.required_eq_ok (values ▸ rfl) (text_text _)
  · exact Record.required_eq_ok (values ▸ rfl) (text_text _)
  · exact Record.required_eq_ok (values ▸ rfl) (text_text _)
  · exact Record.required_eq_ok (values ▸ rfl) (signed_integer h)

end PendingRun

namespace Worklist

structure Encodable (w : Worklist) : Prop where
  counts : AreCounts [w.expectedRuns, w.observedRuns]
  finite : w.completionRate.isFinite = true
  cells : ∀ c ∈ w.cells, c.Encodable
  replicates : ∀ p ∈ w.pendingRuns, IsSigned p.replicate

private theorem ofMembers_before {w : Worklist} (h : w.Encodable) {after : List (String × Json)}
    (unknown : ∀ e ∈ after, (members.find? fun m => m.isCalled e.1) = none) :
    ofMembers (w.toMembers ++ after) = .ok w := by
  obtain ⟨expected, observed, -⟩ := by simpa only [AreCounts, List.forall_mem_cons] using h.counts
  have rate := float_ofFloat h.finite
  have cells : list Cell.decode (.array (w.cells.map Cell.toJson)) = .ok w.cells :=
    list_map fun c inside => Cell.decode_toJson (h.cells c inside)
  have pending : list PendingRun.decode (.array (w.pendingRuns.map PendingRun.toJson)) =
      .ok w.pendingRuns :=
    list_map fun p inside => PendingRun.decode_toJson (h.replicates p inside)
  obtain ⟨r, read, values⟩ : ∃ r, Record.ofObject "Worklist" members (w.toMembers ++ after) =
      .ok r ∧ r.values = w.toMembers := by
    refine Record.ofObject_between _ [] ?_ (by simp) unknown
    simp only [List.forall_mem_cons]
    exact ⟨takes_of rfl (count_ofNat expected), takes_of rfl (count_ofNat observed),
      takes_of rfl rate, takes_of rfl cells, takes_of rfl pending, by simp⟩
  simp only [ofMembers, bind_eq_ok_iff, pure_eq_ok_iff]
  refine ⟨r, read, w.expectedRuns, ?_, w.observedRuns, ?_, w.completionRate, ?_, w.cells, ?_,
    w.pendingRuns, ?_, rfl⟩
  · exact Record.required_eq_ok (values ▸ rfl) (count_ofNat expected)
  · exact Record.required_eq_ok (values ▸ rfl) (count_ofNat observed)
  · exact Record.required_eq_ok (values ▸ rfl) rate
  · exact Record.required_eq_ok (values ▸ rfl) cells
  · exact Record.required_eq_ok (values ▸ rfl) pending

end Worklist

namespace WorklistReport

theorem decode_toJson {r : WorklistReport} (h : r.worklist.Encodable) :
    decode r.toJson = .ok r := by
  obtain ⟨opened, read, path⟩ := exists_outputPath "WorklistReport"
    r.worklist.toMembers r.outputPath (by simp [Worklist.toMembers])
  have planned : Worklist.ofMembers
      (r.worklist.toMembers ++ [("output_path", r.outputPath.toJson)]) = .ok r.worklist := by
    apply Worklist.ofMembers_before h
    rw [List.forall_mem_singleton]
    rfl
  simp only [decode, toJson, bind_eq_ok_iff, pure_eq_ok_iff]
  exact ⟨opened, read, r.outputPath, path, r.worklist, planned, rfl⟩

end WorklistReport
end ToolTrial
