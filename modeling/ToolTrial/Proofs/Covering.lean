import Mathlib.Data.List.Perm.Basic
import Mathlib.Logic.Relation
import ToolTrial.Proofs.Aggregation
import ToolTrial.Proofs.ToolNames

/-!
How far a list of beginnings reaches.  A list that has a beginning of each beginning of another one
makes every name a treatment tool's that the other one makes so, and every count of tool use
follows.  Lists that reach equally far are the same to the check of runs and to the scorecard; so
blank entries, repetitions, letter case, blanks around an entry, the order of the entries and
entries that only go on from others are all without effect.
-/

set_option autoImplicit false
set_option relaxedAutoImplicit false

namespace ToolTrial

namespace Tooling

/-- Every beginning of the first list that says something begins with one of the second list that
does, compared as names are. -/
def Covers (starts others : List String) : Prop :=
  ∀ s ∈ starts, Text.allBlank s = false →
    ∃ t ∈ others, Text.allBlank t = false ∧ Text.startsWith (normal s) (normal t) = true

instance (starts others : List String) : Decidable (Covers starts others) :=
  inferInstanceAs (Decidable (∀ s ∈ starts, Text.allBlank s = false →
    ∃ t ∈ others, Text.allBlank t = false ∧ Text.startsWith (normal s) (normal t) = true))

def CoverAlike (starts others : List String) : Prop :=
  Covers starts others ∧ Covers others starts

namespace Covers

theorem of_subset {starts others : List String} (h : starts ⊆ others) : Covers starts others := by
  intro s member given
  exact ⟨s, h member, given, Text.startsWith_refl _⟩

theorem trans {starts others further : List String} (h : Covers starts others)
    (h' : Covers others further) : Covers starts further := by
  intro s member given
  obtain ⟨t, there, said, begins⟩ := h s member given
  obtain ⟨u, beyond, said', begins'⟩ := h' t there said
  exact ⟨u, beyond, said', Text.startsWith_trans begins begins'⟩

theorem cons {starts others : List String} {s : String} (h : Covers starts others)
    (here : Text.allBlank s = false →
      ∃ t ∈ others, Text.allBlank t = false ∧ Text.startsWith (normal s) (normal t) = true) :
    Covers (s :: starts) others := by
  intro s' member given
  cases member with
  | head => exact here given
  | tail _ there => exact h s' there given

theorem isTreatmentTool {starts others : List String} (h : Covers starts others) {name : String}
    (matched : (ofList starts).isTreatmentTool name = true) :
    (ofList others).isTreatmentTool name = true := by
  rw [isTreatmentTool_iff] at matched ⊢
  obtain ⟨s, member, given, begins⟩ := matched
  obtain ⟨t, there, said, begins'⟩ := h s member given
  exact ⟨t, there, said, Text.startsWith_trans begins begins'⟩

end Covers

/-- One change to a list of beginnings, at its front; a change of the order brings any entry there.
-/
inductive Edit : List String → List String → Prop
  | blank {s : String} (starts : List String) (nothing : Text.allBlank s = true) :
      Edit starts (s :: starts)
  | repetition {starts : List String} {s : String} (listed : s ∈ starts) : Edit starts (s :: starts)
  | letters {s t : String} (starts : List String) (spelled : Text.sameLetters s t = true) :
      Edit (s :: starts) (t :: starts)
  | blanksAround {front back : String} (s : String) (starts : List String)
      (blankFront : Text.allBlank front = true) (blankBack : Text.allBlank back = true) :
      Edit (s :: starts) ((front ++ s ++ back) :: starts)
  | order {starts others : List String} (arranged : starts.Perm others) : Edit starts others
  | extension {starts : List String} {s t : String} (listed : s ∈ starts)
      (given : Text.allBlank s = false)
      (goesOn : Text.startsWith (normal t) (normal s) = true) : Edit starts (t :: starts)

theorem Edit.append {starts : List String} {s : String} (listed : s ∈ starts)
    (given : Text.allBlank s = false) (more : String) : Edit starts ((s ++ more) :: starts) :=
  .extension listed given (startsWith_normal_append given more)

namespace CoverAlike

variable {starts others further : List String}

theorem refl (starts : List String) : CoverAlike starts starts :=
  ⟨.of_subset (List.Subset.refl _), .of_subset (List.Subset.refl _)⟩

theorem symm (h : CoverAlike starts others) : CoverAlike others starts :=
  ⟨h.2, h.1⟩

theorem trans (h : CoverAlike starts others) (h' : CoverAlike others further) :
    CoverAlike starts further :=
  ⟨h.1.trans h'.1, h'.2.trans h.2⟩

theorem cons {s : String} (nothingNew : Text.allBlank s = false →
    ∃ t ∈ starts, Text.allBlank t = false ∧ Text.startsWith (normal s) (normal t) = true) :
    CoverAlike starts (s :: starts) :=
  ⟨.of_subset (List.subset_cons_self s starts), .cons (.of_subset (List.Subset.refl _)) nothingNew⟩

theorem head {s t : String} (alike : normal s = normal t) :
    CoverAlike (s :: starts) (t :: starts) := by
  have one {s t : String} (alike : normal s = normal t) : Covers (s :: starts) (t :: starts) := by
    refine .cons (.of_subset (List.subset_cons_self t starts)) fun given => ?_
    refine ⟨t, List.mem_cons_self, ?_, ?_⟩
    · rw [← normal_isEmpty, ← alike, normal_isEmpty, given]
    · rw [alike]
      exact Text.startsWith_refl _
  exact ⟨one alike, one alike.symm⟩

theorem of_edit (edit : Edit starts others) : CoverAlike starts others := by
  cases edit with
  | blank _ nothing =>
    apply cons
    intro given
    rw [nothing] at given
    cases given
  | repetition listed => exact cons fun given => ⟨_, listed, given, Text.startsWith_refl _⟩
  | letters _ spelled => exact head (normal_eq_of_sameLetters spelled)
  | blanksAround s _ blankFront blankBack =>
    apply head
    rw [normal, normal, Text.trim_surround blankFront blankBack]
  | order arranged => exact ⟨.of_subset arranged.subset, .of_subset arranged.symm.subset⟩
  | extension listed given goesOn => exact cons fun _ => ⟨_, listed, given, goesOn⟩

theorem of_edits (edits : Relation.EqvGen Edit starts others) : CoverAlike starts others := by
  induction edits with
  | rel _ _ edit => exact of_edit edit
  | refl starts => exact refl starts
  | symm _ _ _ ih => exact ih.symm
  | trans _ _ _ _ _ first second => exact first.trans second

end CoverAlike

section Runs

variable {t u : Tooling} (r : Run)

theorem treatmentCalls_sublist
    (more : ∀ name, t.isTreatmentTool name = true → u.isTreatmentTool name = true) :
    (t.treatmentCalls r).Sublist (u.treatmentCalls r) :=
  List.monotone_filter_right _ fun call => more call.toolName

theorem wasUsed_of_wasUsed
    (more : ∀ name, t.isTreatmentTool name = true → u.isTreatmentTool name = true)
    (used : t.wasUsed r = true) : u.wasUsed r = true := by
  have calls := (treatmentCalls_sublist r more).length_le
  have called : 0 < (t.treatmentCalls r).length := by
    simpa [wasUsed, List.length_pos_iff] using used
  have : u.treatmentCalls r ≠ [] := List.length_pos_iff.mp (by omega)
  simpa [wasUsed] using this

theorem wasOffered_of_wasOffered
    (more : ∀ name, t.isTreatmentTool name = true → u.isTreatmentTool name = true)
    (offered : t.wasOffered r = true) : u.wasOffered r = true := by
  rw [wasOffered, List.any_eq_true] at offered ⊢
  obtain ⟨name, listed, matched⟩ := offered
  exact ⟨name, listed, more name matched⟩

end Runs
end Tooling

namespace RunValidation

variable (m : Manifest) (r : Run)

private theorem isContaminated_eq : isContaminated m r = (m.condition? r.conditionId).any fun c =>
    !c.toolsEnabled && (Tooling.ofList m.toolNameStarts).wasUsed r := by
  rw [isContaminated]
  cases m.condition? r.conditionId <;> rfl

private theorem lacksOffer_eq : lacksOffer m r = (m.condition? r.conditionId).any fun c =>
    c.toolsEnabled && !(Tooling.ofList m.toolNameStarts).wasOffered r := by
  rw [lacksOffer]
  cases m.condition? r.conditionId <;> rfl

private theorem lacksUsage_eq : lacksUsage m r = (m.condition? r.conditionId).any fun c =>
    c.toolsEnabled && !(Tooling.ofList m.toolNameStarts).wasUsed r := by
  rw [lacksUsage]
  cases m.condition? r.conditionId <;> rfl

end RunValidation

def Manifest.withStarts (m : Manifest) (starts : List String) : Manifest :=
  { m with toolNameStarts := starts }

/-- What the counts of tool use say under two manifests, of which the second one has more treatment
tools. -/
structure Manifest.UsesLess (m m' : Manifest) (runs : List Run) : Prop where
  contaminated : (RunValidation.ofRuns m runs).contaminatedControlRuns ≤
    (RunValidation.ofRuns m' runs).contaminatedControlRuns
  notOffered : (RunValidation.ofRuns m' runs).treatmentRunsWithoutToolOffered ≤
    (RunValidation.ofRuns m runs).treatmentRunsWithoutToolOffered
  notUsed : (RunValidation.ofRuns m' runs).treatmentRunsWithoutToolUsage ≤
    (RunValidation.ofRuns m runs).treatmentRunsWithoutToolUsage
  /-- The summaries are those of the same conditions, one by one. -/
  summaries : List.Forall₂ (fun s s' : ConditionSummary => s.conditionId = s'.conditionId ∧
      s.toolUsedRuns ≤ s'.toolUsedRuns ∧ s.treatmentToolCalls ≤ s'.treatmentToolCalls)
    (Scorecard.ofRuns m runs).summaries (Scorecard.ofRuns m' runs).summaries

section Manifests

private theorem any_of_any {arm : Option Condition} {p q : Condition → Bool}
    (found : arm.any p = true) (follows : ∀ c, p c = true → q c = true) : arm.any q = true := by
  rw [Option.any_eq_true] at found ⊢
  obtain ⟨c, there, here⟩ := found
  exact ⟨c, there, follows c here⟩

variable (m : Manifest) {starts : List String}

section More

variable (more : ∀ name, (Tooling.ofList m.toolNameStarts).isTreatmentTool name = true →
  (Tooling.ofList starts).isTreatmentTool name = true)
include more

private theorem isContaminated_withStarts (r : Run)
    (found : RunValidation.isContaminated m r = true) :
    RunValidation.isContaminated (m.withStarts starts) r = true := by
  rw [RunValidation.isContaminated_eq] at found ⊢
  refine any_of_any found fun c both => ?_
  rw [Bool.and_eq_true] at both ⊢
  exact ⟨both.1, Tooling.wasUsed_of_wasUsed r more both.2⟩

private theorem lacksOffer_of_withStarts (r : Run)
    (found : RunValidation.lacksOffer (m.withStarts starts) r = true) :
    RunValidation.lacksOffer m r = true := by
  rw [RunValidation.lacksOffer_eq] at found ⊢
  refine any_of_any found fun c both => ?_
  rw [Bool.and_eq_true, Bool.not_eq_true', Bool.eq_false_iff] at both ⊢
  exact ⟨both.1, mt (Tooling.wasOffered_of_wasOffered r more) both.2⟩

private theorem lacksUsage_of_withStarts (r : Run)
    (found : RunValidation.lacksUsage (m.withStarts starts) r = true) :
    RunValidation.lacksUsage m r = true := by
  rw [RunValidation.lacksUsage_eq] at found ⊢
  refine any_of_any found fun c both => ?_
  rw [Bool.and_eq_true, Bool.not_eq_true', Bool.eq_false_iff] at both ⊢
  exact ⟨both.1, mt (Tooling.wasUsed_of_wasUsed r more) both.2⟩

private theorem usesLess_of_more (runs : List Run) : m.UsesLess (m.withStarts starts) runs := by
  refine ⟨?_, ?_, ?_, ?_⟩
  · exact List.countP_mono_left fun r _ => isContaminated_withStarts m more r
  · exact List.countP_mono_left fun r _ => lacksOffer_of_withStarts m more r
  · exact List.countP_mono_left fun r _ => lacksUsage_of_withStarts m more r
  · apply List.forall₂_map_left_iff.mpr
    apply List.forall₂_map_right_iff.mpr
    apply List.forall₂_same.mpr
    intro c _
    refine ⟨rfl, ?_, ?_⟩
    · exact List.countP_mono_left fun r _ => Tooling.wasUsed_of_wasUsed r more
    · exact ConditionSummary.total_le_total
        (fun r => (Tooling.treatmentCalls_sublist r more).length_le) _

end More

section Same

variable (same : (Tooling.ofList m.toolNameStarts).isTreatmentTool =
  (Tooling.ofList starts).isTreatmentTool)
include same

private theorem treatmentCalls_withStarts (r : Run) :
    (Tooling.ofList starts).treatmentCalls r =
      (Tooling.ofList m.toolNameStarts).treatmentCalls r := by
  rw [Tooling.treatmentCalls, Tooling.treatmentCalls, same]

private theorem wasUsed_withStarts (r : Run) : (Tooling.ofList starts).wasUsed r =
    (Tooling.ofList m.toolNameStarts).wasUsed r := by
  rw [Tooling.wasUsed, Tooling.wasUsed, treatmentCalls_withStarts m same]

private theorem wasOffered_withStarts (r : Run) : (Tooling.ofList starts).wasOffered r =
    (Tooling.ofList m.toolNameStarts).wasOffered r := by
  rw [Tooling.wasOffered, Tooling.wasOffered, same]

private theorem isContaminated_same : RunValidation.isContaminated (m.withStarts starts) =
    RunValidation.isContaminated m := by
  funext r
  rw [RunValidation.isContaminated_eq, RunValidation.isContaminated_eq]
  simp only [Manifest.withStarts, wasUsed_withStarts m same]
  rfl

private theorem lacksOffer_same : RunValidation.lacksOffer (m.withStarts starts) =
    RunValidation.lacksOffer m := by
  funext r
  rw [RunValidation.lacksOffer_eq, RunValidation.lacksOffer_eq]
  simp only [Manifest.withStarts, wasOffered_withStarts m same]
  rfl

private theorem lacksUsage_same : RunValidation.lacksUsage (m.withStarts starts) =
    RunValidation.lacksUsage m := by
  funext r
  rw [RunValidation.lacksUsage_eq, RunValidation.lacksUsage_eq]
  simp only [Manifest.withStarts, wasUsed_withStarts m same]
  rfl

private theorem issuesFrom_same (earlier runs : List Run) :
    RunValidation.issuesFrom (m.withStarts starts) earlier runs =
      RunValidation.issuesFrom m earlier runs := by
  have names (r : Run) : RunValidation.calledNames (m.withStarts starts) r =
      RunValidation.calledNames m r := by
    rw [RunValidation.calledNames, RunValidation.calledNames]
    simp only [Manifest.withStarts, treatmentCalls_withStarts m same]
  induction runs generalizing earlier with
  | nil => rfl
  | cons r rest ih =>
    have tools : RunValidation.toolIssues (m.withStarts starts) r =
        RunValidation.toolIssues m r := by
      rw [RunValidation.toolIssues, RunValidation.toolIssues, names, isContaminated_same m same,
        lacksOffer_same m same, lacksUsage_same m same]
    have here : RunValidation.issuesOf (m.withStarts starts) earlier r =
        RunValidation.issuesOf m earlier r := by
      rw [RunValidation.issuesOf, RunValidation.issuesOf, tools]
      rfl
    rw [RunValidation.issuesFrom, RunValidation.issuesFrom, here, ih]

private theorem ofRuns_validation_same (runs : List Run) :
    RunValidation.ofRuns (m.withStarts starts) runs = RunValidation.ofRuns m runs := by
  rw [RunValidation.ofRuns, RunValidation.ofRuns, issuesFrom_same m same,
    isContaminated_same m same, lacksOffer_same m same, lacksUsage_same m same]
  rfl

private theorem ofRuns_summary_same (c : Condition) (runs : List Run) :
    ConditionSummary.ofRuns c (Tooling.ofList starts) runs =
      ConditionSummary.ofRuns c (Tooling.ofList m.toolNameStarts) runs := by
  have used : (Tooling.ofList starts).wasUsed = (Tooling.ofList m.toolNameStarts).wasUsed :=
    funext (wasUsed_withStarts m same)
  have calls : (Tooling.ofList starts).treatmentCalls =
      (Tooling.ofList m.toolNameStarts).treatmentCalls :=
    funext (treatmentCalls_withStarts m same)
  rw [ConditionSummary.ofRuns, ConditionSummary.ofRuns, used, calls]

private theorem ofRuns_scorecard_same (runs : List Run) :
    Scorecard.ofRuns (m.withStarts starts) runs = Scorecard.ofRuns m runs := by
  have byTask : Scorecard.compareTask (m.withStarts starts) runs =
      Scorecard.compareTask m runs := by
    funext t
    rw [Scorecard.compareTask, Scorecard.compareTask]
    simp only [Manifest.withStarts, ofRuns_summary_same m same]
    rfl
  rw [Scorecard.ofRuns, Scorecard.ofRuns, byTask]
  simp only [Manifest.withStarts, ofRuns_summary_same m same]
  rfl

end Same
end Manifests

namespace Manifest

variable {m m' : Manifest}

/-- To manifests whose lists reach equally far, all runs are the same. -/
theorem ofRuns_eq_of_coverAlike (apart : m.withStarts m'.toolNameStarts = m')
    (alike : Tooling.CoverAlike m.toolNameStarts m'.toolNameStarts) (runs : List Run) :
    RunValidation.ofRuns m runs = RunValidation.ofRuns m' runs ∧
      Scorecard.ofRuns m runs = Scorecard.ofRuns m' runs := by
  have same : (Tooling.ofList m.toolNameStarts).isTreatmentTool =
      (Tooling.ofList m'.toolNameStarts).isTreatmentTool := by
    funext name
    exact Bool.eq_iff_iff.mpr ⟨alike.1.isTreatmentTool, alike.2.isTreatmentTool⟩
  have validation := ofRuns_validation_same m same runs
  have scorecard := ofRuns_scorecard_same m same runs
  rw [apart] at validation scorecard
  exact ⟨validation.symm, scorecard.symm⟩

/-- Of two manifests that differ in the beginnings of treatment tools' names at most: where those of
the first are covered by those of the second, every treatment tool of the first is one of the
second, and the counts of tool use follow; where the one list can be edited into the other, the two
are the same to the check of runs and to the scorecard. -/
theorem usesLess_of_covers (apart : m.withStarts m'.toolNameStarts = m') (runs : List Run) :
    (Tooling.Covers m.toolNameStarts m'.toolNameStarts →
      (∀ name, (Tooling.ofList m.toolNameStarts).isTreatmentTool name = true →
        (Tooling.ofList m'.toolNameStarts).isTreatmentTool name = true) ∧ m.UsesLess m' runs) ∧
    (Relation.EqvGen Tooling.Edit m.toolNameStarts m'.toolNameStarts →
      RunValidation.ofRuns m runs = RunValidation.ofRuns m' runs ∧
        Scorecard.ofRuns m runs = Scorecard.ofRuns m' runs) := by
  constructor
  · intro covers
    have more (name : String)
        (matched : (Tooling.ofList m.toolNameStarts).isTreatmentTool name = true) :=
      covers.isTreatmentTool matched
    have less := usesLess_of_more m more runs
    rw [apart] at less
    exact ⟨more, less⟩
  · intro edits
    exact ofRuns_eq_of_coverAlike apart (.of_edits edits) runs

/-- A beginning that is narrower in capitals, and a list that says one thing four times. -/
theorem usesLess_pair :
    (pair.withStarts [" Roslyn_Find", ""]).withStarts pair.toolNameStarts = pair ∧
    Tooling.Covers [" Roslyn_Find", ""] pair.toolNameStarts ∧
    (pair.withStarts [" Roslyn_Find", ""]).UsesLess pair
      [Run.ofPair "1" "plain" none [⟨"roslyn_rename", true⟩], Run.ofPair "2" "tools" none []] ∧
    Relation.EqvGen Tooling.Edit pair.toolNameStarts ["\tRoslyn ", "", "Roslyn_find", "Roslyn"] ∧
    RunValidation.ofRuns pair
        [Run.ofPair "1" "plain" none [⟨"roslyn_rename", true⟩], Run.ofPair "2" "tools" none []] =
      RunValidation.ofRuns (pair.withStarts ["\tRoslyn ", "", "Roslyn_find", "Roslyn"])
        [Run.ofPair "1" "plain" none [⟨"roslyn_rename", true⟩],
          Run.ofPair "2" "tools" none []] := by
  have covers : Tooling.Covers [" Roslyn_Find", ""] pair.toolNameStarts := by decide +kernel
  have edits : Relation.EqvGen Tooling.Edit pair.toolNameStarts
      ["\tRoslyn ", "", "Roslyn_find", "Roslyn"] := by
    refine .trans _ ["Roslyn"] _ (.rel _ _ (.letters _ (by decide +kernel))) ?_
    refine .trans _ ["Roslyn_find", "Roslyn"] _
      (.rel _ _ (.append (s := "Roslyn") List.mem_cons_self (by decide +kernel) "_find")) ?_
    refine .trans _ ["", "Roslyn_find", "Roslyn"] _ (.rel _ _ (.blank _ (by decide +kernel))) ?_
    refine .trans _ ["Roslyn", "", "Roslyn_find", "Roslyn"] _
      (.rel _ _ (.repetition (by decide +kernel))) ?_
    exact .rel _ _ (.blanksAround "Roslyn" _ (by decide +kernel : Text.allBlank "\t" = true)
      (by decide +kernel : Text.allBlank " " = true))
  exact ⟨rfl, covers, ((usesLess_of_covers rfl _).1 covers).2, edits,
    ((usesLess_of_covers rfl _).2 edits).1⟩

end Manifest
end ToolTrial
