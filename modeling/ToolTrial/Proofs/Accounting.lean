import Mathlib.Data.Finset.Card
import ToolTrial.Proofs.Reordering
import ToolTrial.Proofs.Runs

/-!
The account that the check of runs gives.  Every branch of the check adds to the issues of a run by
itself, so its errors and its warnings are sums of counts of runs; only a repeated identifier and a
repeated place depend on the runs before, and of those there are as many as keys beyond the
different ones.
-/

set_option autoImplicit false
set_option relaxedAutoImplicit false

namespace ToolTrial.RunValidation

def named (runs : List Run) : List Run :=
  runs.filter fun r => !Text.allBlank r.runId

/-- The runs with a positive replicate number whose arm and task the manifest has. -/
def placed (m : Manifest) (runs : List Run) : List Run :=
  runs.filter fun r => (m.condition? r.conditionId).isSome && (m.task? r.taskId).isSome &&
    r.replicate.any (0 < ·)

/-- A check of runs whose numbers add up.  Where two numbers are subtracted, the second is that of
the different keys of as many runs as the first one says, so nothing is cut off. -/
structure AddsUp (m : Manifest) (runs : List Run) (v : RunValidation) : Prop where
  errors : v.errorCount =
    runs.countP (fun r => Text.allBlank r.runId) +
    ((named runs).length - ((named runs).map fun r => Identifier.key r.runId).toFinset.card) +
    runs.countP (fun r => (m.condition? r.conditionId).isNone) +
    runs.countP (fun r => (m.task? r.taskId).isNone) +
    runs.countP (fun r => r.replicate.any (· ≤ 0)) +
    v.contaminatedControlRuns +
    runs.countP (fun r => r.helpfulness.any fun score => score < 1 || 5 < score)
  warnings : v.warningCount =
    v.treatmentRunsWithoutToolOffered +
    v.treatmentRunsWithoutToolUsage +
    ((placed m runs).length - ((placed m runs).map fun r =>
      (Identifier.key r.taskId, Identifier.key r.conditionId, r.replicate)).toFinset.card) +
    if runs.length < v.expectedRuns then 1 else 0
  /-- A run is contaminated once, whatever the number of its calls. -/
  contaminated : v.contaminatedControlRuns = runs.countP fun r =>
    (m.conditions.find? fun c => Identifier.same c.id r.conditionId).any fun c =>
      !c.toolsEnabled && r.toolCalls.any fun call =>
        (Tooling.ofList m.toolNameStarts).isTreatmentTool call.toolName
  all : v.issueCount = v.errorCount + v.warningCount
  listed : v.issueCount = v.issues.length
  valid_iff : v.valid = true ↔ v.errorCount = 0

section Single

variable (m : Manifest) (r : Run)

private theorem errorCount_idIssues : Issue.errorCount (idIssues [] r) =
    if Text.allBlank r.runId then 1 else 0 := by
  rw [idIssues, idKey?]
  by_cases blank : Text.allBlank r.runId = true <;> simp [blank]

private theorem errorCount_issuesOf_nil : Issue.errorCount (issuesOf m [] r) =
    (if Text.allBlank r.runId then 1 else 0) +
    ((if (m.condition? r.conditionId).isNone then 1 else 0) +
      if (m.task? r.taskId).isNone then 1 else 0) +
    (if r.replicate.any (· ≤ 0) then 1 else 0) +
    (if isContaminated m r then 1 else 0) +
    if r.helpfulness.any (fun score => score < 1 || 5 < score) then 1 else 0 := by
  rw [issuesOf, Issue.errorCount_append, Issue.errorCount_append, Issue.errorCount_append,
    Issue.errorCount_append, errorCount_idIssues, errorCount_referenceIssues,
    errorCount_replicateIssues, errorCount_toolIssues, errorCount_scoreIssues]

private theorem warningCount_issuesOf_nil : Issue.warningCount (issuesOf m [] r) =
    (if lacksOffer m r then 1 else 0) + if lacksUsage m r then 1 else 0 := by
  have ids : Issue.warningCount (idIssues [] r) = 0 := by
    rw [idIssues]
    cases idKey? r <;> simp
  have replicates : Issue.warningCount (replicateIssues m [] r) = 0 := by
    rw [replicateIssues]
    cases r.replicate with
    | none => rfl
    | some n => by_cases small : n ≤ 0 <;> cases place? m r <;> simp [small]
  rw [issuesOf, Issue.warningCount_append, Issue.warningCount_append, Issue.warningCount_append,
    Issue.warningCount_append, ids, warningCount_referenceIssues, replicates,
    warningCount_scoreIssues, warningCount_toolIssues]
  omega

end Single

section Sums

variable (m : Manifest) (runs : List Run)

private theorem sum_errorCount : (runs.map fun r => Issue.errorCount (issuesOf m [] r)).sum =
    runs.countP (fun r => Text.allBlank r.runId) +
    (runs.countP (fun r => (m.condition? r.conditionId).isNone) +
      runs.countP fun r => (m.task? r.taskId).isNone) +
    runs.countP (fun r => r.replicate.any (· ≤ 0)) +
    runs.countP (isContaminated m) +
    runs.countP fun r => r.helpfulness.any fun score => score < 1 || 5 < score := by
  induction runs with
  | nil => rfl
  | cons r rest ih =>
    rw [List.map_cons, List.sum_cons, ih, errorCount_issuesOf_nil]
    simp only [List.countP_cons]
    omega

private theorem sum_warningCount : (runs.map fun r => Issue.warningCount (issuesOf m [] r)).sum =
    runs.countP (lacksOffer m) + runs.countP (lacksUsage m) := by
  induction runs with
  | nil => rfl
  | cons r rest ih =>
    rw [List.map_cons, List.sum_cons, ih, warningCount_issuesOf_nil]
    simp only [List.countP_cons]
    omega

/-- There are as many repetitions as there are keys beyond the different ones. -/
theorem repeats_nil_eq {κ : Type} [DecidableEq κ] (key? : Run → Option κ) :
    repeats key? [] runs =
      (runs.filterMap key?).length - (runs.filterMap key?).toFinset.card := by
  have all := repeats_add_length_dedup key? [] runs
  rw [List.nil_append, List.filterMap_nil, List.dedup_nil, List.length_nil] at all
  rw [List.card_toFinset]
  omega

theorem filterMap_idKey? : runs.filterMap idKey? =
    (named runs).map fun r => Identifier.key r.runId := by
  rw [named, ← List.filterMap_eq_map, List.filterMap_filter]
  congr 1
  funext r
  rw [idKey?]
  cases Text.allBlank r.runId <;> rfl

theorem map_place?_placed : (runs.filterMap (place? m)).map (fun p => (p.1, p.2.1, some p.2.2)) =
    (placed m runs).map fun r =>
      (Identifier.key r.taskId, Identifier.key r.conditionId, r.replicate) := by
  rw [placed, List.map_filterMap, ← List.filterMap_eq_map, List.filterMap_filter]
  congr 1
  funext r
  rw [place?, Function.comp_apply]
  cases r.replicate with
  | none => simp
  | some n =>
    by_cases positive : 0 < n <;> cases m.condition? r.conditionId <;> cases m.task? r.taskId <;>
      simp [positive]

private theorem repeats_place?_eq : repeats (place? m) [] runs =
    (placed m runs).length - ((placed m runs).map fun r =>
      (Identifier.key r.taskId, Identifier.key r.conditionId, r.replicate)).toFinset.card := by
  have injective : Function.Injective
      fun p : String × String × Int => (p.1, p.2.1, some p.2.2) := by
    rintro ⟨t, c, n⟩ ⟨t', c', n'⟩ equal
    simpa using equal
  have many := congrArg List.length (map_place?_placed m runs)
  rw [List.length_map, List.length_map] at many
  rw [repeats_nil_eq, many, ← map_place?_placed, List.card_toFinset, List.card_toFinset,
    List.dedup_map_of_injective injective, List.length_map]

end Sums

/-- The numbers of the check add up, whatever the manifest and whatever the runs. -/
theorem addsUp_ofRuns (m : Manifest) (runs : List Run) : (ofRuns m runs).AddsUp m runs := by
  refine ⟨?_, ?_, ?_, ?_, rfl, ?_⟩
  · have blamed := count_issuesFrom m Issue.errorCount_nil Issue.errorCount_append
      (errorCount_issuesOf_eq m) [] runs
    have covered : Issue.errorCount (coverageIssues m runs) = 0 := Issue.errorCount_ite_warning ..
    have spare := repeats_nil_eq runs idKey?
    rw [filterMap_idKey?, List.length_map] at spare
    rw [sum_errorCount, spare] at blamed
    show Issue.errorCount (issuesFrom m [] runs ++ coverageIssues m runs) =
      _ + runs.countP (isContaminated m) + _
    rw [Issue.errorCount_append, blamed, covered]
    omega
  · have blamed := count_issuesFrom m Issue.warningCount_nil Issue.warningCount_append
      (warningCount_issuesOf_eq m) [] runs
    have covered : Issue.warningCount (coverageIssues m runs) =
        if runs.length < m.expectedRuns then 1 else 0 := Issue.warningCount_ite_warning ..
    rw [sum_warningCount, repeats_place?_eq] at blamed
    show Issue.warningCount (issuesFrom m [] runs ++ coverageIssues m runs) = _
    rw [Issue.warningCount_append, blamed, covered]
    rfl
  · refine List.countP_congr fun r _ => ?_
    rw [isContaminated]
    show _ ↔ (m.condition? r.conditionId).any _ = true
    cases m.condition? r.conditionId with
    | none => rfl
    | some c => simp [Tooling.wasUsed, Tooling.treatmentCalls]
  · exact Issue.length_eq_add _
  · exact beq_iff_eq

end ToolTrial.RunValidation
