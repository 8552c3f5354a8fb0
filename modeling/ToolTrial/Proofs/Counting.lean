import ToolTrial.Proofs.Runs
import ToolTrial.Proofs.Worklist
import ToolTrial.Score.Scorecard

/-!
Counting runs.  A worklist finds runs by the cell that they lie in, a scorecard by their arm, and
the check of runs looks up what each run refers to.  On a loadable manifest the three agree: no run
is counted twice or passed over by one of them only.
-/

set_option autoImplicit false
set_option relaxedAutoImplicit false

namespace ToolTrial

namespace Issue

/-- The error that a run refers to something that the manifest does not have. -/
def isUnknownReference (issue : Issue) : Bool :=
  issue.isError && (Text.startsWith issue.message "unknown condition_id " ||
    Text.startsWith issue.message "unknown task_id ")

theorem isUnknownReference_of_head? (scope : Scope) (id : String) {message : String} {c : Char}
    (first : message.toList.head? = some c) (apart : c ≠ 'u') :
    (error scope id message).isUnknownReference = false := by
  obtain ⟨rest, spelled⟩ := List.head?_eq_some_iff.mp first
  simp [isUnknownReference, error, Text.startsWith, spelled, List.isPrefixOf, Ne.symm apart]

theorem isUnknownReference_condition (scope : Scope) (id name : String) :
    (error scope id ("unknown condition_id " ++ name)).isUnknownReference = true := by
  simp [isUnknownReference, isError, error, Text.startsWith]

theorem isUnknownReference_task (scope : Scope) (id name : String) :
    (error scope id ("unknown task_id " ++ name)).isUnknownReference = true := by
  simp [isUnknownReference, isError, error, Text.startsWith]

end Issue

def Manifest.declares (m : Manifest) (r : Run) : Bool :=
  (m.condition? r.conditionId).isSome && (m.task? r.taskId).isSome

namespace RunValidation

/-- The runs with the issues that each of them causes, given the runs before them. -/
def issuesByRun (m : Manifest) : (earlier : List Run) → List Run → List (Run × List Issue)
  | _, [] => []
  | earlier, r :: rest => (r, issuesOf m earlier r) :: issuesByRun m (r :: earlier) rest

theorem flatMap_issuesByRun (m : Manifest) (earlier runs : List Run) :
    (issuesByRun m earlier runs).flatMap (·.2) = issuesFrom m earlier runs := by
  induction runs generalizing earlier with
  | nil => rfl
  | cons r rest ih => rw [issuesByRun, List.flatMap_cons, ih, issuesFrom]

theorem map_fst_issuesByRun (m : Manifest) (earlier runs : List Run) :
    (issuesByRun m earlier runs).map (·.1) = runs := by
  induction runs generalizing earlier with
  | nil => rfl
  | cons r rest ih => rw [issuesByRun, List.map_cons, ih]

section References

variable (m : Manifest) (earlier : List Run) (r : Run)

private theorem any_idIssues : (idIssues earlier r).any Issue.isUnknownReference = false := by
  unfold idIssues
  cases idKey? r with
  | none =>
    rw [List.any_cons, Issue.isUnknownReference_of_head? (c := 'r') _ _ (by simp) (by decide)]
    rfl
  | some key =>
    dsimp only
    split
    · rw [List.any_cons, Issue.isUnknownReference_of_head? (c := 'd') _ _ (by simp) (by decide)]
      rfl
    · rfl

private theorem any_replicateIssues :
    (replicateIssues m earlier r).any Issue.isUnknownReference = false := by
  unfold replicateIssues
  cases r.replicate with
  | none => rfl
  | some n =>
    dsimp only
    split
    · rw [List.any_cons, Issue.isUnknownReference_of_head? (c := 'r') _ _ (by simp) (by decide)]
      rfl
    · cases place? m r with
      | none => rfl
      | some place =>
        dsimp only
        split <;> rfl

private theorem any_toolIssues : (toolIssues m r).any Issue.isUnknownReference = false := by
  have contamination (names : String) : (Issue.error .run r.runId
      ("condition contamination: control condition " ++ names)).isUnknownReference = false :=
    Issue.isUnknownReference_of_head? (c := 'c') _ _ (by simp) (by decide)
  simp only [toolIssues, List.any_append, Bool.or_eq_false_iff, String.append_assoc]
  refine ⟨⟨?_, ?_⟩, ?_⟩
  · split <;> simp [contamination]
  · split <;> rfl
  · split <;> rfl

private theorem any_scoreIssues : (scoreIssues r).any Issue.isUnknownReference = false := by
  unfold scoreIssues
  cases r.helpfulness with
  | none => rfl
  | some score =>
    dsimp only
    split
    · rfl
    · rw [List.any_cons, Issue.isUnknownReference_of_head? (c := 'r') _ _ (by simp) (by decide)]
      rfl

private theorem any_referenceIssues : (referenceIssues m r).any Issue.isUnknownReference =
    !m.declares r := by
  rw [referenceIssues, List.any_append, Manifest.declares]
  cases m.condition? r.conditionId <;> cases m.task? r.taskId <;>
    simp [Issue.isUnknownReference_condition, Issue.isUnknownReference_task]

theorem any_issuesOf :
    (issuesOf m earlier r).any Issue.isUnknownReference = !m.declares r := by
  simp [issuesOf, any_idIssues, any_referenceIssues, any_replicateIssues, any_toolIssues,
    any_scoreIssues]

end References

/-- As many runs cause an error about a reference as have an arm or a task that is not declared. -/
theorem countP_issuesByRun (m : Manifest) (earlier runs : List Run) :
    (issuesByRun m earlier runs).countP (fun e => e.2.any Issue.isUnknownReference) =
      runs.countP fun r => !m.declares r := by
  induction runs generalizing earlier with
  | nil => rfl
  | cons r rest ih =>
    rw [issuesByRun, List.countP_cons, List.countP_cons, ih, any_issuesOf]

end RunValidation

namespace Worklist

variable {m : Manifest} (runs : List Run)

theorem mem_cellsOf_iff (m : Manifest) (runs : List Run) (c : Cell) :
    c ∈ cellsOf m runs ↔ ∃ t ∈ m.tasks, ∃ condition ∈ m.conditions,
      c = Cell.of m.runsPerCell runs t.id condition.id := by
  simp only [cellsOf, List.mem_flatMap, List.mem_map, eq_comm]

private theorem sum_observed_filter (loadable : m.Loadable) (kind : Cell → Bool) :
    (((cellsOf m runs).filter kind).map (·.observedRuns)).sum =
      runs.countP fun r => ((cellsOf m runs).filter kind).any fun c =>
        r.isInCell c.taskId c.conditionId := by
  have counted : ((cellsOf m runs).filter kind).map (·.observedRuns) =
      ((cellsOf m runs).filter kind).map fun c =>
        runs.countP fun r => r.isInCell c.taskId c.conditionId := by
    refine List.map_congr_left fun c member => ?_
    exact (accounts_cellsOf m runs (List.mem_of_mem_filter member)).observed_eq
  rw [counted]
  refine sum_countP_eq_countP_any
    (fun (c : Cell) (r : Run) => r.isInCell c.taskId c.conditionId) fun r _ => ?_
  exact (List.filter_sublist.countP_le).trans (countP_cells_le_one (nodup_places loadable runs) r)

theorem sum_observed_cellsOf (loadable : m.Loadable) :
    ((cellsOf m runs).map (·.observedRuns)).sum = runs.countP m.declares := by
  have all := sum_observed_filter runs loadable fun _ => true
  rw [List.filter_true] at all
  rw [all]
  refine List.countP_congr fun r _ => ?_
  rw [List.any_eq_true, Manifest.declares, Bool.and_eq_true, m.isSome_condition?_iff,
    m.isSome_task?_iff]
  constructor
  · rintro ⟨cell, member, inCell⟩
    obtain ⟨t, isTask, c, isCondition, rfl⟩ := (mem_cellsOf_iff m runs cell).mp member
    rw [Run.isInCell, Bool.and_eq_true, Identifier.same_comm, Identifier.same_comm r.conditionId]
      at inCell
    exact ⟨⟨c, isCondition, inCell.2⟩, t, isTask, inCell.1⟩
  · rintro ⟨⟨c, isCondition, named⟩, t, isTask, named'⟩
    refine ⟨_, (mem_cellsOf_iff m runs _).mpr ⟨t, isTask, c, isCondition, rfl⟩, ?_⟩
    rw [Run.isInCell, Bool.and_eq_true, Identifier.same_comm, Identifier.same_comm r.conditionId]
    exact ⟨named', named⟩

theorem sum_observed_arm (loadable : m.Loadable) {c : Condition} (declared : c ∈ m.conditions) :
    (((cellsOf m runs).filter fun cell => cell.conditionId = c.id).map (·.observedRuns)).sum =
      runs.countP fun r => Identifier.same r.conditionId c.id && (m.task? r.taskId).isSome := by
  rw [sum_observed_filter runs loadable]
  refine List.countP_congr fun r _ => ?_
  rw [List.any_eq_true, Bool.and_eq_true, m.isSome_task?_iff]
  constructor
  · rintro ⟨cell, member, inCell⟩
    obtain ⟨isCell, ofArm⟩ := List.mem_filter.mp member
    obtain ⟨t, isTask, c', -, rfl⟩ := (mem_cellsOf_iff m runs cell).mp isCell
    have named : c'.id = c.id := of_decide_eq_true ofArm
    rw [Run.isInCell, Bool.and_eq_true, Identifier.same_comm] at inCell
    exact ⟨named ▸ inCell.2, t, isTask, inCell.1⟩
  · rintro ⟨named, t, isTask, named'⟩
    have isCell : Cell.of m.runsPerCell runs t.id c.id ∈ cellsOf m runs :=
      (mem_cellsOf_iff m runs _).mpr ⟨t, isTask, c, declared, rfl⟩
    refine ⟨_, List.mem_filter.mpr ⟨isCell, by simp [Cell.of]⟩, ?_⟩
    rw [Run.isInCell, Bool.and_eq_true, Identifier.same_comm]
    exact ⟨named', named⟩

theorem filter_cellsOf_eq_singleton (loadable : m.Loadable) {t : Task} (isTask : t ∈ m.tasks)
    {c : Condition} (isCondition : c ∈ m.conditions) :
    (cellsOf m runs).filter (fun cell => cell.taskId = t.id ∧ cell.conditionId = c.id) =
      [Cell.of m.runsPerCell runs t.id c.id] := by
  have distinct : (cellsOf m runs).Nodup := (nodup_places loadable runs).of_map _
  refine List.perm_singleton.mp ((List.perm_ext_iff_of_nodup (distinct.filter _)
    (List.nodup_singleton _)).mpr fun cell => ?_)
  rw [List.mem_filter, List.mem_singleton, mem_cellsOf_iff, decide_eq_true_iff]
  constructor
  · rintro ⟨⟨t', -, c', -, rfl⟩, sameTask, sameCondition⟩
    have task : t'.id = t.id := sameTask
    have condition : c'.id = c.id := sameCondition
    rw [task, condition]
  · rintro rfl
    exact ⟨⟨t, isTask, c, isCondition, rfl⟩, rfl, rfl⟩

/-- A number is that of the runs in the one cell of a task and an arm; of no arm there are none. -/
def Observes (w : Worklist) (t : Task) (arm : Option Condition) (count : Nat) : Prop :=
  match arm with
  | none => count = 0
  | some c => (w.cells.filter fun cell => cell.taskId = t.id ∧ cell.conditionId = c.id).map
      (·.observedRuns) = [count]

end Worklist

namespace Scorecard

variable {m : Manifest} (runs : List Run)

theorem length_runsFor_runsOf (t : Task) (c : Condition) :
    (runsFor t (runsOf c runs)).length =
      (Cell.of m.runsPerCell runs t.id c.id).observedRuns := by
  rw [runsFor, runsOf, List.filter_filter]
  rfl

private theorem observes_of_arm (loadable : m.Loadable) {t : Task} (isTask : t ∈ m.tasks)
    {arm : Option Condition} (declared : ∀ c, arm = some c → c ∈ m.conditions) :
    (Worklist.ofRuns m runs).Observes t arm
      (((arm.map fun c => ConditionSummary.ofRuns c (Tooling.ofList m.toolNameStarts)
        (runsFor t (runsOf c runs))).map (·.runCount)).getD 0) := by
  cases arm with
  | none => rfl
  | some c =>
    have single := Worklist.filter_cellsOf_eq_singleton runs loadable isTask (declared c rfl)
    show (((Worklist.cellsOf m runs).filter _).map _) = [(runsFor t (runsOf c runs)).length]
    rw [single, length_runsFor_runsOf]
    rfl

end Scorecard

/-- Worklist, scorecard and check of some runs count the same runs. -/
structure Manifest.CountsAlike (m : Manifest) (runs : List Run) : Prop where
  /-- The cells hold the runs whose arm and task are declared. -/
  sum_observed : ((Worklist.ofRuns m runs).cells.map (·.observedRuns)).sum =
    runs.countP fun r => (m.condition? r.conditionId).isSome && (m.task? r.taskId).isSome
  /-- The check lists what it finds run by run, and at the end what it finds about their number. -/
  issues_eq : (RunValidation.ofRuns m runs).issues =
    (RunValidation.issuesByRun m [] runs).flatMap (·.2) ++ RunValidation.coverageIssues m runs
  map_fst : (RunValidation.issuesByRun m [] runs).map (·.1) = runs
  /-- The other runs are those that an error about a reference is listed for. -/
  unknown : ((Worklist.ofRuns m runs).cells.map (·.observedRuns)).sum +
    (RunValidation.issuesByRun m [] runs).countP (fun e => e.2.any Issue.isUnknownReference) =
      runs.length
  /-- An arm is credited with the runs in its cells and with those whose task is not declared. -/
  arms : List.Forall₂ (fun c s => s.conditionId = c.id ∧ s.runCount =
      (((Worklist.ofRuns m runs).cells.filter fun cell => cell.conditionId = c.id).map
        (·.observedRuns)).sum +
      runs.countP fun r => Identifier.same r.conditionId c.id && (m.task? r.taskId).isNone)
    m.conditions (Scorecard.ofRuns m runs).summaries
  /-- For a task, the primary arms are compared by the runs in their cells. -/
  tasks : List.Forall₂ (fun t e => e.taskId = t.id ∧
      (Worklist.ofRuns m runs).Observes t m.primaryControl? e.comparison.controlRuns ∧
      (Worklist.ofRuns m runs).Observes t m.primaryTreatment? e.comparison.treatmentRuns)
    m.tasks (Scorecard.ofRuns m runs).byTask

namespace Manifest

variable (m : Manifest) (runs : List Run)

/-- On a loadable manifest the worklist, the scorecard and the check of runs count the same runs,
whatever runs there are. -/
theorem countsAlike (accepted : m.checkInvariants = .ok ()) : m.CountsAlike runs := by
  have loadable := (checkInvariants_eq_ok_iff m).mp accepted
  have observed := Worklist.sum_observed_cellsOf runs loadable
  refine ⟨observed, ?_, RunValidation.map_fst_issuesByRun m [] runs, ?_, ?_, ?_⟩
  · rw [RunValidation.flatMap_issuesByRun]
    rfl
  · show ((Worklist.cellsOf m runs).map (·.observedRuns)).sum + _ = _
    rw [observed, RunValidation.countP_issuesByRun, List.length_eq_countP_add_countP m.declares]
    simp
  · show List.Forall₂ _ m.conditions (m.conditions.map _)
    rw [List.forall₂_map_right_iff, List.forall₂_same]
    intro c declared
    refine ⟨rfl, ?_⟩
    show (Scorecard.runsOf c runs).length = (((Worklist.cellsOf m runs).filter _).map _).sum + _
    rw [Worklist.sum_observed_arm runs loadable declared, Scorecard.runsOf,
      ← List.countP_eq_length_filter,
      List.countP_eq_countP_filter_add runs _ fun r => (m.task? r.taskId).isSome,
      List.countP_filter, List.countP_filter]
    simp
  · show List.Forall₂ _ m.tasks (m.tasks.map _)
    rw [List.forall₂_map_right_iff, List.forall₂_same]
    intro t isTask
    exact ⟨rfl,
      Scorecard.observes_of_arm runs loadable isTask fun c => List.mem_of_find?_eq_some,
      Scorecard.observes_of_arm runs loadable isTask fun c => List.mem_of_find?_eq_some⟩

/-- Runs with odd spellings, of an unknown task, in an unknown arm, and of both. -/
theorem countsAlike_pair : pair.checkInvariants = .ok () ∧
    pair.CountsAlike [Run.ofPair "1" "PLAIN" none [], Run.ofPair "2" "tools" (some 4) [],
      { Run.ofPair "3" "Tools" none [] with taskId := "mend" }, Run.ofPair "3" "other" none [],
      { Run.ofPair "" "other" (some 0) [] with taskId := "mend" }] :=
  ⟨by decide +kernel, countsAlike pair _ (by decide +kernel)⟩

end Manifest
end ToolTrial
