import ToolTrial.Proofs.Runs

/-!
What the check of runs says about identifiers.  Its messages tell these errors from all others, and
runs whose identifiers say something and differ from one another cause none.
-/

set_option autoImplicit false
set_option relaxedAutoImplicit false

namespace ToolTrial

theorem Text.startsWith_append (s rest : String) : startsWith (s ++ rest) s = true := by
  rw [startsWith, String.toList_append]
  exact List.isPrefixOf_iff_prefix.mpr (List.prefix_append _ _)

theorem Text.startsWith_eq_false {start s : String}
    (apart : (start.toList.zip s.toList).any (fun cs => cs.1 != cs.2) = true) (rest : String) :
    startsWith (start ++ rest) s = false := by
  have lists (as bs more : List Char) (apart : (as.zip bs).any (fun cs => cs.1 != cs.2) = true) :
      bs.isPrefixOf (as ++ more) = false := by
    induction as generalizing bs with
    | nil => cases apart
    | cons a as ih =>
      cases bs with
      | nil => cases apart
      | cons b bs =>
        rw [List.zip_cons_cons, List.any_cons, Bool.or_eq_true] at apart
        rw [List.cons_append, List.isPrefixOf, Bool.and_eq_false_iff]
        rcases apart with here | there
        · exact .inl (beq_eq_false_iff_ne.mpr (bne_iff_ne.mp here).symm)
        · exact .inr (ih bs there)
  rw [startsWith, String.toList_append]
  exact lists _ _ _ apart

namespace Issue

/-- The error that the identifier of a run is blank or that of an earlier run. -/
def isAboutIdentifier (issue : Issue) : Bool :=
  issue.isError && (Text.startsWith issue.message "run for task " ||
    Text.startsWith issue.message "duplicate run_id ")

private theorem isAboutIdentifier_empty (scope : Scope) (id rest : String) :
    (error scope id ("run for task " ++ rest)).isAboutIdentifier = true := by
  rw [isAboutIdentifier, error, Text.startsWith_append]
  rfl

private theorem isAboutIdentifier_duplicate (scope : Scope) (id rest : String) :
    (error scope id ("duplicate run_id " ++ rest)).isAboutIdentifier = true := by
  rw [isAboutIdentifier, error, Text.startsWith_append, Bool.or_true]
  rfl

private theorem isAboutIdentifier_eq_false {start : String} (scope : Scope) (id rest : String)
    (empty : (start.toList.zip "run for task ".toList).any (fun cs => cs.1 != cs.2) = true)
    (duplicate :
      (start.toList.zip "duplicate run_id ".toList).any (fun cs => cs.1 != cs.2) = true) :
    (error scope id (start ++ rest)).isAboutIdentifier = false := by
  rw [isAboutIdentifier, error, Text.startsWith_eq_false empty, Text.startsWith_eq_false duplicate]
  exact Bool.and_false _

end Issue

namespace RunValidation

variable (m : Manifest) (earlier : List Run) (r : Run)

private theorem filter_idIssues :
    (idIssues earlier r).filter Issue.isAboutIdentifier = idIssues earlier r := by
  apply List.filter_eq_self.mpr
  intro issue member
  rw [idIssues] at member
  split at member
  · rw [List.mem_singleton.mp member]
    simp only [String.append_assoc]
    exact Issue.isAboutIdentifier_empty _ _ _
  · split at member
    · rw [List.mem_singleton.mp member]
      exact Issue.isAboutIdentifier_duplicate _ _ _
    · cases member

private theorem not_isAboutIdentifier_of_mem_ite {p : Prop} [Decidable p] {given issue : Issue}
    (other : given.isAboutIdentifier = false) (member : issue ∈ if p then [given] else []) :
    issue.isAboutIdentifier = false := by
  split at member
  · rwa [List.mem_singleton.mp member]
  · cases member

private theorem filter_referenceIssues :
    (referenceIssues m r).filter Issue.isAboutIdentifier = [] := by
  apply List.filter_eq_nil_iff.mpr
  intro issue member
  rw [Bool.not_eq_true]
  rcases List.mem_append.mp member with condition | task
  · refine not_isAboutIdentifier_of_mem_ite ?_ condition
    exact Issue.isAboutIdentifier_eq_false _ _ _ (by decide) (by decide)
  · refine not_isAboutIdentifier_of_mem_ite ?_ task
    exact Issue.isAboutIdentifier_eq_false _ _ _ (by decide) (by decide)

private theorem filter_replicateIssues :
    (replicateIssues m earlier r).filter Issue.isAboutIdentifier = [] := by
  apply List.filter_eq_nil_iff.mpr
  intro issue member
  rw [Bool.not_eq_true]
  rw [replicateIssues] at member
  split at member
  · cases member
  · split at member
    · rw [List.mem_singleton.mp member, String.append_assoc]
      exact Issue.isAboutIdentifier_eq_false _ _ _ (by decide) (by decide)
    · split at member
      · exact not_isAboutIdentifier_of_mem_ite rfl member
      · cases member

private theorem filter_toolIssues :
    (toolIssues m r).filter Issue.isAboutIdentifier = [] := by
  apply List.filter_eq_nil_iff.mpr
  intro issue member
  rw [Bool.not_eq_true]
  rw [toolIssues, List.mem_append, List.mem_append] at member
  rcases member with (contaminated | offer) | usage
  · refine not_isAboutIdentifier_of_mem_ite ?_ contaminated
    simp only [String.append_assoc]
    exact Issue.isAboutIdentifier_eq_false _ _ _ (by decide) (by decide)
  · exact not_isAboutIdentifier_of_mem_ite rfl offer
  · exact not_isAboutIdentifier_of_mem_ite rfl usage

private theorem filter_scoreIssues : (scoreIssues r).filter Issue.isAboutIdentifier = [] := by
  apply List.filter_eq_nil_iff.mpr
  intro issue member
  rw [Bool.not_eq_true]
  rw [scoreIssues] at member
  split at member
  · split at member
    · cases member
    · rw [List.mem_singleton.mp member]
      simp only [String.append_assoc]
      exact Issue.isAboutIdentifier_eq_false _ _ _ (by decide) (by decide)
  · cases member

theorem filter_issuesOf :
    (issuesOf m earlier r).filter Issue.isAboutIdentifier = idIssues earlier r := by
  simp only [issuesOf, List.filter_append, filter_idIssues, filter_referenceIssues,
    filter_replicateIssues, filter_toolIssues, filter_scoreIssues, List.append_nil]

private theorem filter_issuesFrom {earlier runs : List Run} (continued : Continue earlier runs) :
    (issuesFrom m earlier runs).filter Issue.isAboutIdentifier = [] := by
  induction runs generalizing earlier with
  | nil => rfl
  | cons r rest ih =>
    have named := continued.identified.named r List.mem_cons_self
    have fresh := continued.fresh r List.mem_cons_self
    rw [issuesFrom, List.filter_append, filter_issuesOf, idIssues_eq_nil named fresh,
      List.nil_append]
    exact ih continued.step

theorem filter_issues_of_identified {runs : List Run} (identified : Run.Identified runs) :
    (ofRuns m runs).issues.filter Issue.isAboutIdentifier = [] := by
  have coverage : (coverageIssues m runs).filter Issue.isAboutIdentifier = [] := by
    rw [coverageIssues]
    split <;> rfl
  rw [ofRuns, List.filter_append, coverage, List.append_nil]
  exact filter_issuesFrom m ⟨identified, fun _ _ _ member => absurd member List.not_mem_nil⟩

end RunValidation
end ToolTrial
