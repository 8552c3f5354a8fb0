import Mathlib.Data.List.Dedup
import ToolTrial.Gate
import ToolTrial.Proofs.Completion
import ToolTrial.Proofs.Spelling

/-!
The order of runs.  Which of several runs is blamed for a repetition hangs on their order, but how
often one is blamed does not: the repetitions and the different keys make up all keys together.  So
the worklist, every count, and with them the verdict of the gate stay what they are when runs are
put in another order; only averages and the lists of issues may change.
-/

set_option autoImplicit false
set_option relaxedAutoImplicit false

namespace ToolTrial

namespace RunValidation

section Repeats

variable {κ : Type} [DecidableEq κ] (key? : Run → Option κ)

def isRepeated (earlier : List Run) (r : Run) : Bool :=
  (key? r).any fun k => k ∈ earlier.filterMap key?

private theorem isRepeated_of_none (earlier : List Run) {r : Run} (keyless : key? r = none) :
    isRepeated key? earlier r = false := by
  rw [isRepeated, keyless, Option.any_none]

private theorem isRepeated_of_some (earlier : List Run) {r : Run} {k : κ}
    (keyed : key? r = some k) :
    isRepeated key? earlier r = decide (k ∈ earlier.filterMap key?) := by
  rw [isRepeated, keyed, Option.any_some]

def repeats : (earlier : List Run) → List Run → Nat
  | _, [] => 0
  | earlier, r :: rest =>
    (if isRepeated key? earlier r then 1 else 0) + repeats (r :: earlier) rest

theorem repeats_add_length_dedup (earlier runs : List Run) :
    repeats key? earlier runs + ((earlier ++ runs).filterMap key?).dedup.length =
      (runs.filterMap key?).length + (earlier.filterMap key?).dedup.length := by
  induction runs generalizing earlier with
  | nil => simp [repeats]
  | cons r rest ih =>
    have all : ((earlier ++ r :: rest).filterMap key?).dedup.length =
        ((r :: earlier ++ rest).filterMap key?).dedup.length :=
      (List.perm_middle.filterMap key?).dedup.length_eq
    have there := ih (r :: earlier)
    rw [repeats, all]
    cases found : key? r with
    | none =>
      have fresh := isRepeated_of_none key? earlier found
      rw [List.filterMap_cons_none found] at there ⊢
      rw [fresh, if_neg Bool.false_ne_true]
      omega
    | some k =>
      have repeated := isRepeated_of_some key? earlier found
      rw [List.filterMap_cons_some (l := earlier) found] at there
      rw [List.filterMap_cons_some found, List.length_cons, repeated]
      by_cases seen : k ∈ earlier.filterMap key?
      · rw [List.dedup_cons_of_mem seen] at there
        rw [decide_eq_true seen, if_pos rfl]
        omega
      · rw [List.dedup_cons_of_notMem seen, List.length_cons] at there
        rw [decide_eq_false seen, if_neg Bool.false_ne_true]
        omega

theorem repeats_perm {runs others : List Run} (perm : runs.Perm others) :
    repeats key? [] runs = repeats key? [] others := by
  have here := repeats_add_length_dedup key? [] runs
  have there := repeats_add_length_dedup key? [] others
  have keys := perm.filterMap key?
  rw [List.nil_append] at here there
  rw [keys.length_eq, keys.dedup.length_eq] at here
  omega

end Repeats

variable (m : Manifest)

section Blame

variable (earlier : List Run) (r : Run)

theorem errorCount_issuesOf_eq : Issue.errorCount (issuesOf m earlier r) =
    Issue.errorCount (issuesOf m [] r) + if isRepeated idKey? earlier r then 1 else 0 := by
  have ids : Issue.errorCount (idIssues earlier r) =
      Issue.errorCount (idIssues [] r) + if isRepeated idKey? earlier r then 1 else 0 := by
    rw [idIssues, idIssues, isRepeated]
    cases found : idKey? r with
    | none => simp
    | some key =>
      by_cases seen : key ∈ earlier.filterMap idKey? <;> simp [seen, -List.mem_filterMap]
  have replicates : Issue.errorCount (replicateIssues m earlier r) =
      Issue.errorCount (replicateIssues m [] r) := by
    rw [replicateIssues, replicateIssues]
    cases r.replicate with
    | none => rfl
    | some n => by_cases small : n ≤ 0 <;> cases place? m r <;> simp [small]
  simp only [issuesOf, Issue.errorCount_append, ids, replicates]
  omega

theorem warningCount_issuesOf_eq : Issue.warningCount (issuesOf m earlier r) =
    Issue.warningCount (issuesOf m [] r) + if isRepeated (place? m) earlier r then 1 else 0 := by
  have ids : Issue.warningCount (idIssues earlier r) = Issue.warningCount (idIssues [] r) := by
    rw [idIssues, idIssues]
    cases idKey? r <;> simp
  have replicates : Issue.warningCount (replicateIssues m earlier r) =
      Issue.warningCount (replicateIssues m [] r) +
        if isRepeated (place? m) earlier r then 1 else 0 := by
    rw [replicateIssues, replicateIssues, isRepeated]
    cases given : r.replicate with
    | none => simp [place?, given]
    | some n =>
      by_cases small : n ≤ 0
      · have noPlace : place? m r = none := by
          have negative : ¬ 0 < n := by omega
          simp [place?, given, negative]
        simp [small, noPlace]
      · cases place? m r with
        | none => simp [small]
        | some place =>
          by_cases seen : place ∈ earlier.filterMap (place? m) <;>
            simp [small, seen, -List.mem_filterMap]
  simp only [issuesOf, Issue.warningCount_append, ids, replicates]
  omega

end Blame

/-- A count of issues that the runs before a run raise by repetitions only. -/
theorem count_issuesFrom {κ : Type} [DecidableEq κ] {key? : Run → Option κ}
    {count : List Issue → Nat} (none : count [] = 0)
    (adds : ∀ issues rest, count (issues ++ rest) = count issues + count rest)
    (blames : ∀ earlier r, count (issuesOf m earlier r) =
      count (issuesOf m [] r) + if isRepeated key? earlier r then 1 else 0)
    (earlier runs : List Run) : count (issuesFrom m earlier runs) =
      (runs.map fun r => count (issuesOf m [] r)).sum + repeats key? earlier runs := by
  induction runs generalizing earlier with
  | nil => simp [issuesFrom, repeats, none]
  | cons r rest ih =>
    rw [issuesFrom, adds, blames, ih, List.map_cons, List.sum_cons, repeats]
    omega

theorem errorCount_ofRuns (runs : List Run) : (ofRuns m runs).errorCount =
    (runs.map fun r => Issue.errorCount (issuesOf m [] r)).sum + repeats idKey? [] runs := by
  have covered : Issue.errorCount (coverageIssues m runs) = 0 := Issue.errorCount_ite_warning ..
  have count := count_issuesFrom m Issue.errorCount_nil Issue.errorCount_append
    (errorCount_issuesOf_eq m) [] runs
  simp only [ofRuns, Issue.errorCount_append, count, covered, Nat.add_zero]

variable {runs others : List Run} (perm : runs.Perm others)
include perm

private theorem errorCount_perm :
    Issue.errorCount (ofRuns m runs).issues = Issue.errorCount (ofRuns m others).issues := by
  have own := (perm.map fun r => Issue.errorCount (issuesOf m [] r)).sum_nat
  show (ofRuns m runs).errorCount = (ofRuns m others).errorCount
  rw [errorCount_ofRuns, errorCount_ofRuns, own, repeats_perm idKey? perm]

private theorem warningCount_perm :
    Issue.warningCount (ofRuns m runs).issues = Issue.warningCount (ofRuns m others).issues := by
  have count := count_issuesFrom m Issue.warningCount_nil Issue.warningCount_append
    (warningCount_issuesOf_eq m) []
  have own := (perm.map fun r => Issue.warningCount (issuesOf m [] r)).sum_nat
  simp only [ofRuns, coverageIssues, Issue.warningCount_append, count, own, perm.length_eq,
    repeats_perm (place? m) perm]

theorem tally_perm : (ofRuns m runs).tally = (ofRuns m others).tally := by
  have errors := errorCount_perm m perm
  have warnings := warningCount_perm m perm
  have many : (ofRuns m runs).issues.length = (ofRuns m others).issues.length := by
    rw [Issue.length_eq_add, Issue.length_eq_add, errors, warnings]
  simp only [ofRuns] at errors warnings many
  simp only [tally, ofRuns, errors, warnings, many, perm.length_eq, perm.countP_eq]

end RunValidation

theorem Worklist.ofRuns_perm (m : Manifest) {runs others : List Run} (perm : runs.Perm others) :
    ofRuns m runs = ofRuns m others := by
  simp only [ofRuns, cellsOf, Cell.of_perm m.runsPerCell perm, perm.length_eq]

namespace ConditionSummary

/-- A summary without its averages. -/
def counted (s : ConditionSummary) : ConditionSummary :=
  { s with
    averageDurationSeconds := none
    averageHelpfulness := none
    averageInputTokens := none
    averageOutputTokens := none
    averageTotalTokens := none }

theorem total_perm (count : Run → Nat) {runs others : List Run} (perm : runs.Perm others) :
    total count runs = total count others :=
  perm.foldr_eq' (fun r _ r' _ n => Nat.add_left_comm (count r') (count r) n) 0

theorem counted_ofRuns_perm (c : Condition) (t : Tooling) {runs others : List Run}
    (perm : runs.Perm others) : (ofRuns c t runs).counted = (ofRuns c t others).counted := by
  have calls := total_perm (fun r => r.toolCalls.length) perm
  have treatmentCalls := total_perm (fun r => (t.treatmentCalls r).length) perm
  have scored := ((perm.filterMap Run.helpfulness).filter Run.isScore).length_eq
  simp only [counted, ofRuns, scores, perm.length_eq, perm.countP_eq, calls, treatmentCalls, scored]

end ConditionSummary

namespace Comparison

/-- Two comparisons of the same arms with the same result, whatever its numbers. -/
structure Alike (c d : Comparison) : Prop where
  controlId : c.controlId = d.controlId
  treatmentId : c.treatmentId = d.treatmentId
  controlRuns : c.controlRuns = d.controlRuns
  treatmentRuns : c.treatmentRuns = d.treatmentRuns
  status : c.outcome.status = d.outcome.status
  note : c.note = d.note

theorem Alike.sufficientData_eq {c d : Comparison} (h : c.Alike d) :
    c.sufficientData = d.sufficientData := by
  have decided (e : Comparison) : e.sufficientData = decide (e.outcome.status = .computed) := by
    unfold sufficientData
    cases e.outcome <;> rfl
  rw [decided, decided, h.status]

open ConditionSummary (counted)

private theorem noteOf_both (c t : ConditionSummary) : noteOf (some c) (some t) =
    "no runs recorded for " ++
      Text.join " and " (([c, t].filter fun s => s.runCount == 0).map roleOf) ++
      "; collect more data" := rfl

private theorem noteOf_counted (control treatment : Option ConditionSummary) :
    noteOf (control.map counted) (treatment.map counted) = noteOf control treatment := by
  have idle (s : ConditionSummary) : s.counted.runCount = s.runCount := rfl
  have role (s : ConditionSummary) : roleOf s.counted = roleOf s := rfl
  cases control with
  | none => cases treatment <;> rfl
  | some c =>
    cases treatment with
    | none => exact (rfl : noteOf (some c.counted) none = "no treatment condition declared")
    | some t =>
      rw [Option.map_some, Option.map_some, noteOf_both, noteOf_both]
      simp only [List.filter_cons, List.filter_nil, idle]
      by_cases c.runCount == 0 <;> by_cases t.runCount == 0 <;> simp [*]

private theorem alike_of_counted (control treatment : Option ConditionSummary) :
    (of control treatment).Alike (of (control.map counted) (treatment.map counted)) := by
  have withRuns_counted (s : Option ConditionSummary) :
      withRuns (s.map counted) = (withRuns s).map counted := by
    cases s with
    | none => rfl
    | some s => by_cases runs : 0 < s.runCount <;> simp [withRuns, Option.filter, counted, runs]
  refine ⟨?_, ?_, ?_, ?_, ?_, ?_⟩
  · cases control <;> rfl
  · cases treatment <;> rfl
  · cases control <;> rfl
  · cases treatment <;> rfl
  · simp only [of, withRuns_counted]
    cases withRuns control <;> cases withRuns treatment <;> rfl
  · simp only [note, of, withRuns_counted, insufficiencyOf, noteOf_counted]
    cases withRuns control <;> cases withRuns treatment <;> rfl

theorem alike_of {control control' treatment treatment' : Option ConditionSummary}
    (controls : control.map counted = control'.map counted)
    (treatments : treatment.map counted = treatment'.map counted) :
    (of control treatment).Alike (of control' treatment') := by
  have here := alike_of_counted control treatment
  have there := alike_of_counted control' treatment'
  rw [controls, treatments] at here
  exact ⟨here.controlId.trans there.controlId.symm, here.treatmentId.trans there.treatmentId.symm,
    here.controlRuns.trans there.controlRuns.symm,
    here.treatmentRuns.trans there.treatmentRuns.symm, here.status.trans there.status.symm,
    here.note.trans there.note.symm⟩

end Comparison

namespace Scorecard

open ConditionSummary (counted)

variable (m : Manifest) {runs others : List Run} (perm : runs.Perm others)
include perm

private theorem counted_arm_perm (c : Condition) (t : Tooling) :
    (ConditionSummary.ofRuns c t (runsOf c runs)).counted =
      (ConditionSummary.ofRuns c t (runsOf c others)).counted :=
  ConditionSummary.counted_ofRuns_perm c t (perm.filter _)

theorem summaries_perm : (ofRuns m runs).summaries.map counted =
    (ofRuns m others).summaries.map counted := by
  simp only [ofRuns, List.map_map]
  exact List.map_congr_left fun c _ => counted_arm_perm perm c _

theorem primary_perm : (ofRuns m runs).primary.Alike (ofRuns m others).primary := by
  let summary (runs : List Run) (c : Condition) : ConditionSummary :=
    ConditionSummary.ofRuns c (Tooling.ofList m.toolNameStarts) (runsOf c runs)
  -- The arm that a summary is looked up for does not hang on the runs.
  have found (arm : Option Condition) :
      (arm.bind fun c => (m.conditions.map (summary runs)).find? fun s =>
          Identifier.same s.conditionId c.id).map counted =
        (arm.bind fun c => (m.conditions.map (summary others)).find? fun s =>
          Identifier.same s.conditionId c.id).map counted := by
    cases arm with
    | none => rfl
    | some c =>
      rw [Option.bind_some, Option.bind_some, List.find?_map, List.find?_map, Option.map_map,
        Option.map_map]
      show Option.map _ (m.conditions.find? fun d => Identifier.same d.id c.id) =
        Option.map _ (m.conditions.find? fun d => Identifier.same d.id c.id)
      congr 1
      funext d
      exact counted_arm_perm perm d _
  exact Comparison.alike_of (found _) (found _)

theorem byTask_perm : List.Forall₂
    (fun a b => a.taskId = b.taskId ∧ a.comparison.Alike b.comparison)
    (ofRuns m runs).byTask (ofRuns m others).byTask := by
  have summary (t : Task) (arm : Option Condition) :
      (arm.map fun c => ConditionSummary.ofRuns c (Tooling.ofList m.toolNameStarts)
          (runsFor t (runsOf c runs))).map counted =
        (arm.map fun c => ConditionSummary.ofRuns c (Tooling.ofList m.toolNameStarts)
          (runsFor t (runsOf c others))).map counted := by
    cases arm with
    | none => rfl
    | some c =>
      have selected := (perm.filter fun r => Identifier.same r.conditionId c.id).filter fun r =>
        Identifier.same r.taskId t.id
      exact congrArg some (ConditionSummary.counted_ofRuns_perm c _ selected)
  show List.Forall₂ _ (m.tasks.map _) (m.tasks.map _)
  rw [List.forall₂_map_left_iff, List.forall₂_map_right_iff, List.forall₂_same]
  intro t _
  exact ⟨rfl, Comparison.alike_of (summary t _) (summary t _)⟩

end Scorecard

/-- Two lists of runs that weigh the same with a manifest: averages and lists of issues apart, they
have the same worklist, check and scorecard, and the gate judges them alike. -/
structure Manifest.WeighsAlike (m : Manifest) (runs others : List Run) : Prop where
  worklist : Worklist.ofRuns m runs = Worklist.ofRuns m others
  tally : (RunValidation.ofRuns m runs).tally = (RunValidation.ofRuns m others).tally
  summaries : (Scorecard.ofRuns m runs).summaries.map ConditionSummary.counted =
    (Scorecard.ofRuns m others).summaries.map ConditionSummary.counted
  primary : (Scorecard.ofRuns m runs).primary.Alike (Scorecard.ofRuns m others).primary
  byTask : List.Forall₂ (fun a b => a.taskId = b.taskId ∧ a.comparison.Alike b.comparison)
    (Scorecard.ofRuns m runs).byTask (Scorecard.ofRuns m others).byTask
  verdict : ∀ (manifest : ManifestReport) (sha256 now now' : String) (out out' : Path)
    (failOnRunWarnings : Bool),
    (Gate.findings manifest ⟨RunValidation.ofRuns m runs, out⟩
      (ScoreReport.ofScorecard m sha256 now runs (Scorecard.ofRuns m runs) out')
      failOnRunWarnings).verdict =
    (Gate.findings manifest ⟨RunValidation.ofRuns m others, out⟩
      (ScoreReport.ofScorecard m sha256 now' others (Scorecard.ofRuns m others) out')
      failOnRunWarnings).verdict

/-- The order of runs does not matter to any manifest. -/
theorem Manifest.weighsAlike_of_perm (m : Manifest) {runs others : List Run}
    (perm : runs.Perm others) : m.WeighsAlike runs others := by
  have tally := RunValidation.tally_perm m perm
  have primary := Scorecard.primary_perm m perm
  refine ⟨Worklist.ofRuns_perm m perm, tally, Scorecard.summaries_perm m perm, primary,
    Scorecard.byTask_perm m perm, ?_⟩
  intro manifest sha256 now now' out out' failOnRunWarnings
  have valid := congrArg RunValidation.valid tally
  have errors := congrArg RunValidation.errorCount tally
  have warnings := congrArg RunValidation.warningCount tally
  simp only [RunValidation.tally] at valid errors warnings
  simp only [Gate.findings, ScoreReport.ofScorecard, valid, errors, warnings,
    primary.sufficientData_eq, primary.note]

/-- Either of two runs may be blamed for their common identifier and place. -/
theorem Manifest.weighsAlike_pair : pair.WeighsAlike
    [Run.ofPair "a" "plain" (some 1) [], Run.ofPair "b" "tools" (some 2) [],
      Run.ofPair "A" "PLAIN" (some 1) [⟨"roslyn", true⟩]]
    [Run.ofPair "A" "PLAIN" (some 1) [⟨"roslyn", true⟩], Run.ofPair "a" "plain" (some 1) [],
      Run.ofPair "b" "tools" (some 2) []] :=
  weighsAlike_of_perm pair (@List.perm_append_comm _
    [Run.ofPair "a" "plain" (some 1) [], Run.ofPair "b" "tools" (some 2) []]
    [Run.ofPair "A" "PLAIN" (some 1) [⟨"roslyn", true⟩]])

end ToolTrial
