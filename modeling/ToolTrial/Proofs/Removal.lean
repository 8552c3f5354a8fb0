import Mathlib.Algebra.Order.BigOperators.Group.List
import Mathlib.Algebra.Order.Group.Nat
import ToolTrial.Proofs.DraftIssues
import ToolTrial.Proofs.Reordering

/-!
Runs that come later and runs that are left out.  The check looks at runs in order, so what it says
about some runs is said first when others come after them.  Where runs are left out, a repetition
may become the first occurrence of its identifier, and the blame for it vanishes with the first one;
but no run repeats what it did not repeat before, so nothing that counts as wrong becomes more.
-/

set_option autoImplicit false
set_option relaxedAutoImplicit false

namespace ToolTrial.RunValidation

section Repeats

variable {κ : Type} [DecidableEq κ] (key? : Run → Option κ)

theorem isRepeated_of_subset {earlier more : List Run} (known : earlier ⊆ more) {r : Run}
    (repeated : isRepeated key? earlier r = true) : isRepeated key? more r = true := by
  obtain ⟨k, keyed, seen⟩ := (Option.any_eq_true _ _).mp repeated
  refine (Option.any_eq_true _ _).mpr ⟨k, keyed, decide_eq_true ?_⟩
  exact List.filterMap_subset key? known (of_decide_eq_true seen)

theorem repeats_le_of_sublist {earlier more sub runs : List Run} (known : earlier ⊆ more)
    (part : sub.Sublist runs) : repeats key? earlier sub ≤ repeats key? more runs := by
  induction part generalizing earlier more with
  | slnil => exact Nat.le_refl _
  | cons r _ ih =>
    have later := ih (List.subset_cons_of_subset r known)
    rw [repeats]
    omega
  | cons_cons r _ ih =>
    have later := ih (List.cons_subset_cons r known)
    have here : (if isRepeated key? earlier r then 1 else 0) ≤
        if isRepeated key? more r then 1 else 0 := by
      by_cases repeated : isRepeated key? earlier r = true
      · rw [if_pos repeated, if_pos (isRepeated_of_subset key? known repeated)]
      · rw [if_neg repeated]
        exact Nat.zero_le _
    rw [repeats, repeats]
    omega

end Repeats

/-- A check that finds no more wrong than another one does. -/
structure AtMost (v w : RunValidation) : Prop where
  errors : v.errorCount ≤ w.errorCount
  contaminated : v.contaminatedControlRuns ≤ w.contaminatedControlRuns
  withoutOffer : v.treatmentRunsWithoutToolOffered ≤ w.treatmentRunsWithoutToolOffered
  withoutUsage : v.treatmentRunsWithoutToolUsage ≤ w.treatmentRunsWithoutToolUsage
  valid : w.valid = true → v.valid = true

variable (m : Manifest)

theorem errorCount_le_of_sublist {sub runs : List Run} (part : sub.Sublist runs) :
    (ofRuns m sub).errorCount ≤ (ofRuns m runs).errorCount := by
  have own := (part.map fun r => Issue.errorCount (issuesOf m [] r)).sum_le_sum
    fun _ _ => Nat.zero_le _
  have repeated := repeats_le_of_sublist idKey? (List.Subset.refl []) part
  rw [errorCount_ofRuns, errorCount_ofRuns]
  exact Nat.add_le_add own repeated

theorem atMost_of_sublist {sub runs : List Run} (part : sub.Sublist runs) :
    (ofRuns m sub).AtMost (ofRuns m runs) := by
  have errors := errorCount_le_of_sublist m part
  refine ⟨errors, part.countP_le, part.countP_le, part.countP_le, fun valid => ?_⟩
  have none : (ofRuns m runs).errorCount = 0 := beq_iff_eq.mp valid
  exact beq_iff_eq.mpr (Nat.le_zero.mp (none ▸ errors))

/-- The check is incremental.  What it says about runs, apart from the warning at the end that there
are too few of them, is said first when more runs follow; and a part of the runs has no more errors,
no more contaminated runs and no more treatment runs without tools than all of them, so that every
part of valid runs is valid. -/
theorem ofRuns_incremental (runs : List Run) :
    (∀ more, ∃ single, (ofRuns m runs).issues = single ++ coverageIssues m runs ∧
      single <+: (ofRuns m (runs ++ more)).issues) ∧
    ∀ sub, sub.Sublist runs → (ofRuns m sub).AtMost (ofRuns m runs) := by
  refine ⟨fun more => ⟨issuesFrom m [] runs, rfl, ?_⟩, fun sub part => atMost_of_sublist m part⟩
  show _ <+: issuesFrom m [] (runs ++ more) ++ coverageIssues m (runs ++ more)
  rw [issuesFrom_append, List.append_assoc]
  exact List.prefix_append _ _

/-- Without the first of two runs with one identifier, the second one is blamed no more. -/
theorem ofRuns_incremental_pair :
    [Run.ofPair "A" "PLAIN" (some 1) [⟨"roslyn", true⟩]].Sublist
      [Run.ofPair "a" "plain" (some 1) [], Run.ofPair "A" "PLAIN" (some 1) [⟨"roslyn", true⟩]] ∧
    (ofRuns .pair [Run.ofPair "A" "PLAIN" (some 1) [⟨"roslyn", true⟩]]).AtMost
      (ofRuns .pair [Run.ofPair "a" "plain" (some 1) [],
        Run.ofPair "A" "PLAIN" (some 1) [⟨"roslyn", true⟩]]) := by
  have part := List.sublist_cons_self (Run.ofPair "a" "plain" (some 1) [])
    [Run.ofPair "A" "PLAIN" (some 1) [⟨"roslyn", true⟩]]
  exact ⟨part, (ofRuns_incremental .pair _).2 _ part⟩

end ToolTrial.RunValidation
