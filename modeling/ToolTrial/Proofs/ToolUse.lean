import ToolTrial.Proofs.Runs
import ToolTrial.Proofs.Worklist
import ToolTrial.Score.Scorecard

/-!
Use of tools, as the check of runs and the scorecard see it.  The check looks up the arm of each run
and counts; the scorecard selects the runs of each arm and counts.  On a loadable manifest both come
to the same numbers, so that a gate and a score never contradict each other.
-/

set_option autoImplicit false
set_option relaxedAutoImplicit false

namespace ToolTrial

section Arms

variable {m : Manifest} (distinct : (m.conditions.map fun c => Identifier.key c.id).Nodup)
include distinct

private theorem any_filter_same (id : String) (kind : Condition → Bool) :
    (m.conditions.filter kind).any (fun c => Identifier.same id c.id) =
      (m.condition? id).any kind := by
  rw [Bool.eq_iff_iff, List.any_eq_true, Option.any_eq_true]
  simp only [List.mem_filter, Manifest.condition?_eq_some_iff distinct, Identifier.same_comm id]
  constructor
  · rintro ⟨c, ⟨declared, isKind⟩, named⟩
    exact ⟨c, ⟨declared, named⟩, isKind⟩
  · rintro ⟨c, ⟨declared, named⟩, isKind⟩
    exact ⟨c, ⟨declared, isKind⟩, named⟩

/-- The runs with a property are counted arm by arm. -/
theorem sum_countP_runsOf (kind : Condition → Bool) (property : Run → Bool) (runs : List Run) :
    ((m.conditions.filter kind).map fun c => (Scorecard.runsOf c runs).countP property).sum =
      runs.countP fun r => (m.condition? r.conditionId).any kind && property r := by
  have counted (c : Condition) : (Scorecard.runsOf c runs).countP property =
      runs.countP fun r => property r && Identifier.same r.conditionId c.id := by
    rw [Scorecard.runsOf, List.countP_filter]
  have once (r : Run) : (m.conditions.filter kind).countP
      (fun c => property r && Identifier.same r.conditionId c.id) ≤ 1 := by
    refine le_trans ?_ (Identifier.countP_same_le_one Condition.id distinct r.conditionId)
    refine le_trans List.filter_sublist.countP_le (List.countP_mono_left fun c _ both => ?_)
    rw [Identifier.same_comm]
    exact ((Bool.and_eq_true _ _).mp both).2
  simp only [counted]
  rw [sum_countP_eq_countP_any
    (fun (c : Condition) (r : Run) => property r && Identifier.same r.conditionId c.id)
    fun r _ => once r]
  refine List.countP_congr fun r _ => ?_
  rw [← any_filter_same distinct]
  cases property r <;> simp

end Arms

/-- The check of some runs and their scorecard say the same about the use of treatment tools. -/
structure Manifest.ToolUseAlike (m : Manifest) (runs : List Run) : Prop where
  /-- The contaminated runs are those of control arms that used such tools. -/
  contaminated : (RunValidation.ofRuns m runs).contaminatedControlRuns =
    (((Scorecard.ofRuns m runs).summaries.filter (!·.toolsEnabled)).map (·.toolUsedRuns)).sum
  used_le : ∀ s ∈ (Scorecard.ofRuns m runs).summaries, s.toolUsedRuns ≤ s.runCount
  /-- The runs without use are the other ones of treatment arms. -/
  unused : (RunValidation.ofRuns m runs).treatmentRunsWithoutToolUsage =
    (((Scorecard.ofRuns m runs).summaries.filter (·.toolsEnabled)).map fun s =>
      s.runCount - s.toolUsedRuns).sum
  /-- Every run is one of an arm, or its arm is not declared. -/
  total : ((Scorecard.ofRuns m runs).summaries.map (·.runCount)).sum +
    runs.countP (fun r => (m.condition? r.conditionId).isNone) =
      (RunValidation.ofRuns m runs).totalRuns

namespace Manifest

variable (m : Manifest) (runs : List Run)

private theorem map_filter_summaries (kind : Bool → Bool) (count : ConditionSummary → Nat) :
    (m.conditions.filter fun c => kind c.toolsEnabled).map (fun c =>
        count (ConditionSummary.ofRuns c (Tooling.ofList m.toolNameStarts)
          (Scorecard.runsOf c runs))) =
      ((Scorecard.ofRuns m runs).summaries.filter fun s => kind s.toolsEnabled).map count := by
  show _ = (List.filter _ (m.conditions.map _)).map count
  rw [List.filter_map, List.map_map]
  rfl

/-- On a loadable manifest the check of runs and the scorecard agree about the use of tools,
whatever runs there are. -/
theorem toolUseAlike (accepted : m.checkInvariants = .ok ()) : m.ToolUseAlike runs := by
  have distinct := ((checkInvariants_eq_ok_iff m).mp accepted).distinctConditions
  let tooling := Tooling.ofList m.toolNameStarts
  have others (c : Condition) : (Scorecard.runsOf c runs).countP (fun r => !tooling.wasUsed r) =
      (Scorecard.runsOf c runs).length - (Scorecard.runsOf c runs).countP tooling.wasUsed := by
    rw [List.length_eq_countP_add_countP tooling.wasUsed]
    simp
  refine ⟨?_, ?_, ?_, ?_⟩
  · calc runs.countP (RunValidation.isContaminated m)
      _ = runs.countP fun r =>
          (m.condition? r.conditionId).any (!·.toolsEnabled) && tooling.wasUsed r := by
        refine List.countP_congr fun r _ => ?_
        unfold RunValidation.isContaminated
        cases m.condition? r.conditionId <;> simp [tooling]
      _ = ((m.conditions.filter (!·.toolsEnabled)).map fun c =>
          (Scorecard.runsOf c runs).countP tooling.wasUsed).sum :=
        (sum_countP_runsOf distinct _ _ runs).symm
      _ = _ := congrArg List.sum (map_filter_summaries m runs not (·.toolUsedRuns))
  · intro s member
    obtain ⟨c, -, rfl⟩ := List.mem_map.mp member
    exact List.countP_le_length
  · calc runs.countP (RunValidation.lacksUsage m)
      _ = runs.countP fun r =>
          (m.condition? r.conditionId).any (·.toolsEnabled) && !tooling.wasUsed r := by
        refine List.countP_congr fun r _ => ?_
        unfold RunValidation.lacksUsage
        cases m.condition? r.conditionId <;> simp [tooling]
      _ = ((m.conditions.filter (·.toolsEnabled)).map fun c =>
          (Scorecard.runsOf c runs).countP fun r => !tooling.wasUsed r).sum :=
        (sum_countP_runsOf distinct _ _ runs).symm
      _ = ((m.conditions.filter (·.toolsEnabled)).map fun c => (Scorecard.runsOf c runs).length -
          (Scorecard.runsOf c runs).countP tooling.wasUsed).sum := by
        simp only [others]
      _ = _ := congrArg List.sum
        (map_filter_summaries m runs id fun s => s.runCount - s.toolUsedRuns)
  · have declared : (m.conditions.map fun c => (Scorecard.runsOf c runs).length).sum =
        runs.countP fun r => (m.condition? r.conditionId).isSome := by
      have all := sum_countP_runsOf distinct (fun _ => true) (fun _ => true) runs
      simp only [List.filter_true, List.countP_true, Bool.and_true] at all
      rw [all]
      refine List.countP_congr fun r _ => ?_
      cases m.condition? r.conditionId <;> simp
    have listed := congrArg List.sum
      (map_filter_summaries m runs (fun _ => true) (·.runCount))
    simp only [List.filter_true] at listed
    refine (congrArg (· + _) (listed.symm.trans declared)).trans ?_
    show _ = runs.length
    rw [List.length_eq_countP_add_countP fun r : Run => (m.condition? r.conditionId).isSome]
    congr 1
    refine List.countP_congr fun r _ => ?_
    cases m.condition? r.conditionId <;> simp

/-- A contaminated run under an odd spelling, a run without use, and one in an unknown arm. -/
theorem toolUseAlike_pair : pair.checkInvariants = .ok () ∧
    pair.ToolUseAlike [Run.ofPair "1" "PLAIN" none [⟨" Roslyn_find", true⟩],
      Run.ofPair "2" "tools" none [⟨"grep", true⟩], Run.ofPair "3" "Tools" none [⟨"ROSLYN", false⟩],
      Run.ofPair "4" "other" none [⟨"roslyn", true⟩]] :=
  ⟨by decide +kernel, toolUseAlike pair _ (by decide +kernel)⟩

end Manifest
end ToolTrial
