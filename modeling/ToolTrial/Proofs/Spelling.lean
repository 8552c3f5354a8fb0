import ToolTrial.Check.Runs
import ToolTrial.Proofs.Manifest
import ToolTrial.Score.Scorecard
import ToolTrial.Worklist

/-!
Letter case in the identifiers of runs.  Nothing that is worked out from runs changes when their
identifiers are put in small letters, the texts of issues apart; so records that differ in letter
case only are worth the same to the worklist, to the scorecard and to the check of runs.
-/

set_option autoImplicit false
set_option relaxedAutoImplicit false

namespace ToolTrial

namespace Text

private theorem toLower_toLower (c : Char) : c.toLower.toLower = c.toLower := by
  by_cases capital : 'A'.val ≤ c.val ∧ c.val ≤ 'Z'.val
  · obtain ⟨range, lowered⟩ := toNat_toLower_of_capital capital
    apply toLower_of_not_capital
    intro again
    have range' := (toNat_toLower_of_capital again).1
    omega
  · rw [toLower_of_not_capital capital, toLower_of_not_capital capital]

private theorem isBlank_eq_false {c : Char} (low : 65 ≤ c.toNat) (high : c.toNat ≤ 122) :
    isBlank c = false := by
  simp only [isBlank, blankRanges, List.any_cons, List.any_nil, Bool.or_false, Bool.or_eq_false_iff,
    Bool.and_eq_false_iff, decide_eq_false_iff_not, Nat.not_le]
  omega

theorem isBlank_toLower (c : Char) : isBlank c.toLower = isBlank c := by
  by_cases capital : 'A'.val ≤ c.val ∧ c.val ≤ 'Z'.val
  · obtain ⟨⟨low, high⟩, lowered⟩ := toNat_toLower_of_capital capital
    have before := isBlank_eq_false (c := c) (by omega) (by omega)
    have after := isBlank_eq_false (c := c.toLower) (by omega) (by omega)
    rw [before, after]
  · rw [toLower_of_not_capital capital]

end Text

namespace Identifier

@[simp]
theorem key_key (id : String) : key (key id) = key id := by
  simp only [key, Text.lower, String.toList_ofList, List.map_map, Function.comp_def,
    Text.toLower_toLower]

@[simp]
theorem same_key_left (a b : String) : same (key a) b = same a b := by
  rw [Bool.eq_iff_iff, same_iff_key_eq, same_iff_key_eq, key_key]

@[simp]
theorem same_key_right (a b : String) : same a (key b) = same a b := by
  rw [same_comm, same_key_left, same_comm]

@[simp]
theorem allBlank_key (id : String) : Text.allBlank (key id) = Text.allBlank id := by
  simp only [Text.allBlank, key, Text.lower, String.toList_ofList, List.all_map, Function.comp_def,
    Text.isBlank_toLower]

theorem allBlank_congr {a b : String} (h : same a b = true) :
    Text.allBlank a = Text.allBlank b := by
  rw [← allBlank_key, (same_iff_key_eq a b).mp h, allBlank_key]

end Identifier

namespace Run

def lowered (r : Run) : Run :=
  { r with
    runId := Identifier.key r.runId
    taskId := Identifier.key r.taskId
    conditionId := Identifier.key r.conditionId }

/-- Two records of one run that spell its identifiers with different letter case. -/
structure Respelled (r s : Run) : Prop where
  runId : Identifier.same r.runId s.runId = true
  taskId : Identifier.same r.taskId s.taskId = true
  conditionId : Identifier.same r.conditionId s.conditionId = true
  others : { r with runId := s.runId, taskId := s.taskId, conditionId := s.conditionId } = s

theorem Respelled.lowered_eq {r s : Run} (h : r.Respelled s) : r.lowered = s.lowered := by
  rw [← h.others, lowered, lowered, (Identifier.same_iff_key_eq _ _).mp h.runId,
    (Identifier.same_iff_key_eq _ _).mp h.taskId, (Identifier.same_iff_key_eq _ _).mp h.conditionId]

theorem map_lowered_eq {runs others : List Run} (h : List.Forall₂ Respelled runs others) :
    runs.map lowered = others.map lowered := by
  induction h with
  | nil => rfl
  | cons here _ ih => rw [List.map_cons, List.map_cons, here.lowered_eq, ih]

private theorem isInCell_lowered (r : Run) (taskId conditionId : String) :
    r.lowered.isInCell taskId conditionId = r.isInCell taskId conditionId := by
  simp [isInCell, lowered]

end Run

namespace Manifest

variable (m : Manifest) (id : String)

@[simp]
theorem condition?_key : m.condition? (Identifier.key id) = m.condition? id := by
  simp [condition?]

@[simp]
theorem task?_key : m.task? (Identifier.key id) = m.task? id := by
  simp [task?]

end Manifest

theorem Worklist.ofRuns_map_lowered (m : Manifest) (runs : List Run) :
    ofRuns m (runs.map Run.lowered) = ofRuns m runs := by
  have cell (taskId conditionId : String) :
      Cell.of m.runsPerCell (runs.map Run.lowered) taskId conditionId =
        Cell.of m.runsPerCell runs taskId conditionId := by
    have observed : (runs.map Run.lowered).filter (fun r => r.isInCell taskId conditionId) =
        (runs.filter fun r => r.isInCell taskId conditionId).map Run.lowered := by
      simp only [List.filter_map, Function.comp_def, Run.isInCell_lowered]
    simp only [Cell.of, observed, List.length_map, List.filterMap_map]
    rfl
  simp only [ofRuns, cellsOf, cell, List.length_map]

namespace Scorecard

variable (m : Manifest) (runs : List Run)

private theorem runsOf_map_lowered (c : Condition) :
    runsOf c (runs.map Run.lowered) = (runsOf c runs).map Run.lowered := by
  simp [runsOf, List.filter_map, Function.comp_def, Run.lowered]

private theorem runsFor_map_lowered (t : Task) :
    runsFor t (runs.map Run.lowered) = (runsFor t runs).map Run.lowered := by
  simp [runsFor, List.filter_map, Function.comp_def, Run.lowered]

/-- Once runs have been selected, a summary does not look at their identifiers. -/
private theorem summary_map_lowered (c : Condition) (t : Tooling) :
    ConditionSummary.ofRuns c t (runs.map Run.lowered) = ConditionSummary.ofRuns c t runs := by
  simp only [ConditionSummary.ofRuns, ConditionSummary.scores, ConditionSummary.meanCount,
    ConditionSummary.total, List.length_map, List.countP_map, List.map_map, List.filterMap_map,
    List.foldr_map]
  rfl

theorem ofRuns_map_lowered : ofRuns m (runs.map Run.lowered) = ofRuns m runs := by
  have byTask (t : Task) : compareTask m (runs.map Run.lowered) t = compareTask m runs t := by
    simp only [compareTask, runsOf_map_lowered, runsFor_map_lowered, summary_map_lowered]
  simp only [ofRuns, funext byTask, runsOf_map_lowered, summary_map_lowered]

end Scorecard

namespace Issue

/-- How much an issue weighs and what kind of thing it is about. -/
def tag (issue : Issue) : Severity × Scope := (issue.severity, issue.scope)

theorem errorCount_eq_of_tags {issues others : List Issue}
    (tags : issues.map tag = others.map tag) : errorCount issues = errorCount others := by
  have counted (list : List Issue) :
      errorCount list = (list.map tag).countP fun t => t.1 == .error := by
    rw [List.countP_map]
    rfl
  rw [counted, counted, tags]

end Issue

namespace RunValidation

def tally (v : RunValidation) : RunValidation := { v with issues := [] }

variable (m : Manifest) (earlier : List Run) (r : Run)

private theorem idKey?_lowered : idKey? r.lowered = idKey? r := by
  simp [idKey?, Run.lowered]

private theorem place?_lowered : place? m r.lowered = place? m r := by
  simp [place?, Run.lowered]

private theorem filterMap_lowered {κ : Type} {key? : Run → Option κ}
    (unchanged : ∀ r : Run, key? r.lowered = key? r) :
    (earlier.map Run.lowered).filterMap key? = earlier.filterMap key? := by
  rw [List.filterMap_map]
  exact List.filterMap_congr fun r _ => unchanged r

private theorem tags_idIssues : (idIssues (earlier.map Run.lowered) r.lowered).map Issue.tag =
    (idIssues earlier r).map Issue.tag := by
  rw [idIssues, idIssues, idKey?_lowered, filterMap_lowered earlier idKey?_lowered]
  cases idKey? r with
  | none => rfl
  | some key =>
    dsimp only
    split <;> rfl

private theorem tags_referenceIssues : (referenceIssues m r.lowered).map Issue.tag =
    (referenceIssues m r).map Issue.tag := by
  simp only [referenceIssues, Run.lowered, Manifest.condition?_key, Manifest.task?_key]
  cases m.condition? r.conditionId <;> cases m.task? r.taskId <;> rfl

private theorem tags_replicateIssues :
    (replicateIssues m (earlier.map Run.lowered) r.lowered).map Issue.tag =
      (replicateIssues m earlier r).map Issue.tag := by
  have number : r.lowered.replicate = r.replicate := rfl
  rw [replicateIssues, replicateIssues, number, place?_lowered,
    filterMap_lowered earlier (place?_lowered m)]
  cases r.replicate with
  | none => rfl
  | some n =>
    dsimp only
    split
    · rfl
    · cases place? m r with
      | none => rfl
      | some place =>
        dsimp only
        split <;> rfl

private theorem isContaminated_lowered : isContaminated m r.lowered = isContaminated m r := by
  simp only [isContaminated, Run.lowered, Manifest.condition?_key]
  rfl

private theorem lacksOffer_lowered : lacksOffer m r.lowered = lacksOffer m r := by
  simp only [lacksOffer, Run.lowered, Manifest.condition?_key]
  rfl

private theorem lacksUsage_lowered : lacksUsage m r.lowered = lacksUsage m r := by
  simp only [lacksUsage, Run.lowered, Manifest.condition?_key]
  rfl

private theorem tags_toolIssues : (toolIssues m r.lowered).map Issue.tag =
    (toolIssues m r).map Issue.tag := by
  simp only [toolIssues, isContaminated_lowered, lacksOffer_lowered, lacksUsage_lowered]
  cases isContaminated m r <;> cases lacksOffer m r <;> cases lacksUsage m r <;> rfl

private theorem tags_scoreIssues : (scoreIssues r.lowered).map Issue.tag =
    (scoreIssues r).map Issue.tag := by
  have score : r.lowered.helpfulness = r.helpfulness := rfl
  rw [scoreIssues, scoreIssues, score]
  cases r.helpfulness with
  | none => rfl
  | some score =>
    dsimp only
    split <;> rfl

private theorem tags_issuesFrom (runs : List Run) :
    (issuesFrom m (earlier.map Run.lowered) (runs.map Run.lowered)).map Issue.tag =
      (issuesFrom m earlier runs).map Issue.tag := by
  induction runs generalizing earlier with
  | nil => rfl
  | cons r rest ih =>
    have here : (issuesOf m (earlier.map Run.lowered) r.lowered).map Issue.tag =
        (issuesOf m earlier r).map Issue.tag := by
      simp only [issuesOf, List.map_append, tags_idIssues, tags_referenceIssues,
        tags_replicateIssues, tags_toolIssues, tags_scoreIssues]
    have there := ih (r :: earlier)
    rw [List.map_cons] at there
    rw [List.map_cons, issuesFrom, issuesFrom, List.map_append, List.map_append, here, there]

theorem tags_map_lowered (runs : List Run) :
    (ofRuns m (runs.map Run.lowered)).issues.map Issue.tag =
      (ofRuns m runs).issues.map Issue.tag := by
  have found := tags_issuesFrom m [] runs
  rw [List.map_nil] at found
  simp only [ofRuns, List.map_append, found, coverageIssues, List.length_map]

theorem tally_map_lowered (runs : List Run) :
    (ofRuns m (runs.map Run.lowered)).tally = (ofRuns m runs).tally := by
  have tags := tags_map_lowered m runs
  have errors := Issue.errorCount_eq_of_tags tags
  have many : (ofRuns m (runs.map Run.lowered)).issues.length = (ofRuns m runs).issues.length := by
    simpa using congrArg List.length tags
  simp only [ofRuns] at errors many
  simp only [tally, ofRuns, errors, many, Issue.warningCount, List.length_map, List.countP_map,
    Function.comp_def, isContaminated_lowered, lacksOffer_lowered, lacksUsage_lowered]

end RunValidation

/-- Two lists of runs that a manifest makes the same of, the texts of issues apart. -/
structure Manifest.JudgesAlike (m : Manifest) (runs others : List Run) : Prop where
  scorecard : Scorecard.ofRuns m runs = Scorecard.ofRuns m others
  worklist : Worklist.ofRuns m runs = Worklist.ofRuns m others
  tally : (RunValidation.ofRuns m runs).tally = (RunValidation.ofRuns m others).tally
  tags : (RunValidation.ofRuns m runs).issues.map Issue.tag =
    (RunValidation.ofRuns m others).issues.map Issue.tag

/-- The letter case of identifiers never matters: runs that agree one by one but for it are judged
alike by every manifest. -/
theorem Manifest.judgesAlike_of_respelled (m : Manifest) {runs others : List Run}
    (respelled : List.Forall₂ Run.Respelled runs others) : m.JudgesAlike runs others := by
  have lowered := Run.map_lowered_eq respelled
  refine ⟨?_, ?_, ?_, ?_⟩
  · rw [← Scorecard.ofRuns_map_lowered, lowered, Scorecard.ofRuns_map_lowered]
  · rw [← Worklist.ofRuns_map_lowered, lowered, Worklist.ofRuns_map_lowered]
  · rw [← RunValidation.tally_map_lowered, lowered, RunValidation.tally_map_lowered]
  · rw [← RunValidation.tags_map_lowered, lowered, RunValidation.tags_map_lowered]

/-- A repeated identifier, a place that is taken twice, and an arm that is not declared. -/
theorem Manifest.judgesAlike_pair : pair.JudgesAlike
    [Run.ofPair "a" "plain" (some 1) [], Run.ofPair "A" "PLAIN" (some 1) [⟨"roslyn", true⟩],
      Run.ofPair "b" "Other" none []]
    [Run.ofPair "A" "Plain" (some 1) [], Run.ofPair "a" "plain" (some 1) [⟨"roslyn", true⟩],
      Run.ofPair "B" "oTHER" none []] := by
  refine judgesAlike_of_respelled pair (.cons ?_ (.cons ?_ (.cons ?_ .nil))) <;>
    exact ⟨by decide +kernel, by decide +kernel, by decide +kernel, rfl⟩

end ToolTrial
