import ToolTrial.Proofs.Manifest
import ToolTrial.Score.Scorecard

/-!
What is compared with what.  The primary arms are compared by summaries that are looked up by
identifier, and for a task by summaries that are made anew.  Where no two arms share an identifier,
an arm stands for itself either way, so that the comparison for a task is the primary one over the
runs of that task.
-/

set_option autoImplicit false
set_option relaxedAutoImplicit false

namespace ToolTrial

/-- No two arms have spellings of one identifier. -/
def Manifest.ArmsDiffer (m : Manifest) : Prop :=
  m.conditions.Pairwise fun c d => Identifier.same c.id d.id = false

instance (m : Manifest) : Decidable m.ArmsDiffer :=
  inferInstanceAs (Decidable (List.Pairwise _ _))

theorem Manifest.armsDiffer_iff (m : Manifest) :
    m.ArmsDiffer ↔ (m.conditions.map fun c => Identifier.key c.id).Nodup :=
  (Identifier.nodup_keys_iff_pairwise Condition.id m.conditions).symm

theorem Comparison.sufficientData_of (control treatment : Option ConditionSummary) :
    (of control treatment).sufficientData =
      ((withRuns control).isSome && (withRuns treatment).isSome) := by
  rw [sufficientData, of]
  cases withRuns control <;> cases withRuns treatment <;> rfl

namespace Scorecard

variable (m : Manifest) (runs : List Run)

def summaryOf (c : Condition) : ConditionSummary :=
  ConditionSummary.ofRuns c (Tooling.ofList m.toolNameStarts) (runsOf c runs)

/-- The comparison of the primary arms over some runs, each by a summary of its own. -/
def compareArms : Comparison :=
  Comparison.of (m.primaryControl?.map (summaryOf m runs))
    (m.primaryTreatment?.map (summaryOf m runs))

theorem isSome_withRuns_iff (arm : Option Condition) :
    (Comparison.withRuns (arm.map (summaryOf m runs))).isSome = true ↔
      ∃ c, arm = some c ∧ ∃ r ∈ runs, Identifier.same r.conditionId c.id = true := by
  cases arm with
  | none => simp [Comparison.withRuns]
  | some c =>
    simp [Comparison.withRuns, Option.filter, summaryOf, ConditionSummary.ofRuns, runsOf,
      List.length_pos_iff_exists_mem]

variable {m}

private theorem find?_summaries (differ : m.ArmsDiffer) {c : Condition}
    (member : c ∈ m.conditions) :
    (m.conditions.map (summaryOf m runs)).find? (fun s => Identifier.same s.conditionId c.id) =
      some (summaryOf m runs c) := by
  have found : (m.conditions.find? fun d => Identifier.same d.id c.id) = some c :=
    (Identifier.find?_same_eq_some_iff Condition.id ((m.armsDiffer_iff).mp differ) c.id c).mpr
      ⟨member, Identifier.same_refl c.id⟩
  rw [List.find?_map]
  exact congrArg (Option.map (summaryOf m runs)) found

theorem primary_eq_compareArms (differ : m.ArmsDiffer) :
    (ofRuns m runs).primary = compareArms m runs := by
  have arm (primary : Option Condition) (declared : ∀ c, primary = some c → c ∈ m.conditions) :
      (primary.bind fun c => (m.conditions.map (summaryOf m runs)).find? fun s =>
        Identifier.same s.conditionId c.id) = primary.map (summaryOf m runs) := by
    cases primary with
    | none => rfl
    | some c => exact find?_summaries runs differ (declared c rfl)
  have control := arm m.primaryControl? fun c => List.mem_of_find?_eq_some
  have treatment := arm m.primaryTreatment? fun c => List.mem_of_find?_eq_some
  rw [compareArms, ← control, ← treatment]
  rfl

/-- It does not matter whether runs are selected by arm or by task first. -/
theorem runsFor_runsOf (t : Task) (c : Condition) :
    runsFor t (runsOf c runs) = runsOf c (runsFor t runs) :=
  List.filter_comm _ _ runs

theorem comparison_compareTask (t : Task) :
    (compareTask m runs t).comparison = compareArms m (runsFor t runs) := by
  simp only [compareTask, runsFor_runsOf]
  rfl

/-- Where no two arms share an identifier, the comparison for a task is the primary comparison over
the runs of that task, in their order, to the last of its numbers. -/
theorem byTask_eq_primary (m : Manifest) (differ : m.ArmsDiffer) (runs : List Run) :
    (ofRuns m runs).byTask = m.tasks.map fun t =>
      ⟨t.id, (ofRuns m (runs.filter fun r => Identifier.same r.taskId t.id)).primary⟩ := by
  refine List.map_congr_left fun t _ => ?_
  have comparison := comparison_compareTask (m := m) runs t
  rw [← primary_eq_compareArms _ differ] at comparison
  exact congrArg (TaskComparison.mk t.id) comparison

private def pairOfTasks : Manifest :=
  { Manifest.pair with
    tasks := Manifest.pair.tasks ++ [⟨"mend", "Mend", "repo", "abc", ["make"], none, none⟩] }

/-- Runs of both tasks in one arm, and of the first task only in the other one. -/
theorem byTask_eq_primary_pair : pairOfTasks.ArmsDiffer ∧
    (ofRuns pairOfTasks [Run.ofPair "1" "plain" none [], Run.ofPair "2" "TOOLS" none [],
      { Run.ofPair "3" "Tools" none [] with taskId := "Mend" }]).byTask =
    pairOfTasks.tasks.map fun t => ⟨t.id, (ofRuns pairOfTasks
      ([Run.ofPair "1" "plain" none [], Run.ofPair "2" "TOOLS" none [],
        { Run.ofPair "3" "Tools" none [] with taskId := "Mend" }].filter fun r =>
          Identifier.same r.taskId t.id)).primary⟩ :=
  ⟨by decide +kernel, byTask_eq_primary pairOfTasks (by decide +kernel) _⟩

end Scorecard
end ToolTrial
