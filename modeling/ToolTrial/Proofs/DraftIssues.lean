import ToolTrial.Proofs.Draft
import ToolTrial.Proofs.Runs
import ToolTrial.Proofs.ToolNames

/-!
Drafts under the check of runs.  Put behind the runs that they complete, drafts cause two kinds of
issues: an identifier may be that of another run, and a treatment arm has called none of its tools.
Everything else that the check looks for has been settled by the plan.
-/

set_option autoImplicit false
set_option relaxedAutoImplicit false

namespace ToolTrial

namespace RunValidation

variable (m : Manifest)

theorem issuesFrom_append (earlier runs more : List Run) :
    issuesFrom m earlier (runs ++ more) =
      issuesFrom m earlier runs ++ issuesFrom m (runs.reverse ++ earlier) more := by
  induction runs generalizing earlier with
  | nil => rfl
  | cons r rest ih =>
    rw [List.cons_append, issuesFrom, issuesFrom, ih, List.append_assoc, List.reverse_cons,
      List.append_assoc, List.singleton_append]

private theorem scope_of_mem_ite {p : Prop} [Decidable p] {given issue : Issue}
    (scope : given.scope = .run) (member : issue ∈ if p then [given] else []) :
    issue.scope = .run := by
  split at member
  · rwa [List.mem_singleton.mp member]
  · cases member

theorem scope_of_mem_issuesOf {earlier : List Run} {r : Run} {issue : Issue}
    (member : issue ∈ issuesOf m earlier r) : issue.scope = .run := by
  simp only [issuesOf, referenceIssues, toolIssues, List.mem_append] at member
  rcases member with ((((id | (condition | task)) | replicate) | ((calls | offer) | usage)) | score)
  · rw [idIssues] at id
    split at id
    · rw [List.mem_singleton.mp id]
      rfl
    · exact scope_of_mem_ite rfl id
  · exact scope_of_mem_ite rfl condition
  · exact scope_of_mem_ite rfl task
  · rw [replicateIssues] at replicate
    split at replicate
    · cases replicate
    · split at replicate
      · rw [List.mem_singleton.mp replicate]
        rfl
      · split at replicate
        · exact scope_of_mem_ite rfl replicate
        · cases replicate
  · exact scope_of_mem_ite rfl calls
  · exact scope_of_mem_ite rfl offer
  · exact scope_of_mem_ite rfl usage
  · rw [scoreIssues] at score
    split at score
    · split at score
      · cases score
      · rw [List.mem_singleton.mp score]
        rfl
    · cases score

private theorem scope_of_mem_issuesFrom {earlier runs : List Run} {issue : Issue}
    (member : issue ∈ issuesFrom m earlier runs) : issue.scope = .run := by
  induction runs generalizing earlier with
  | nil => cases member
  | cons r rest ih =>
    rcases List.mem_append.mp member with here | there
    · exact scope_of_mem_issuesOf m here
    · exact ih there

theorem filter_scope_issues (runs : List Run) :
    (ofRuns m runs).issues.filter (fun issue => issue.scope = .run) = issuesFrom m [] runs := by
  have single : (issuesFrom m [] runs).filter (fun issue => issue.scope = .run) =
      issuesFrom m [] runs :=
    List.filter_eq_self.mpr fun _ member => decide_eq_true (scope_of_mem_issuesFrom m member)
  have coverage : (coverageIssues m runs).filter (fun issue => issue.scope = .run) = [] := by
    rw [coverageIssues]
    split <;> rfl
  rw [ofRuns, List.filter_append, single, coverage, List.append_nil]

end RunValidation

namespace Tooling

theorem isTreatmentTool_of_mem {starts : List String} {start : String} (member : start ∈ starts)
    (given : Text.allBlank start = false) : (ofList starts).isTreatmentTool start = true :=
  (isTreatmentTool_iff starts start).mpr ⟨start, member, given, Text.startsWith_refl _⟩

end Tooling

def PendingRun.place (p : PendingRun) : String × String × Int :=
  (Identifier.key p.taskId, Identifier.key p.conditionId, p.replicate)

namespace Worklist

variable {m : Manifest} {runs : List Run}

theorem nodup_places_pendingRuns (loadable : m.Loadable) (runs : List Run) :
    ((ofRuns m runs).pendingRuns.map PendingRun.place).Nodup := by
  refine (nodup_pendingRuns loadable runs).map_on fun p here q there equal => ?_
  obtain ⟨t, isTask, c, isCondition, planned, -⟩ := of_mem_pendingRuns here
  obtain ⟨t', isTask', c', isCondition', planned', -⟩ := of_mem_pendingRuns there
  rw [planned, planned'] at equal
  simp only [PendingRun.place, PendingRun.of, Prod.mk.injEq] at equal
  obtain ⟨sameTask, sameCondition, sameNumber⟩ := equal
  have task := List.inj_on_of_nodup_map loadable.distinctTasks isTask isTask' sameTask
  have condition :=
    List.inj_on_of_nodup_map loadable.distinctConditions isCondition isCondition' sameCondition
  rw [planned, planned', task, condition, sameNumber]

theorem place?_ne_of_mem_pendingRuns {p : PendingRun} (pending : p ∈ (ofRuns m runs).pendingRuns)
    {r : Run} (member : r ∈ runs) : RunValidation.place? m r ≠ some p.place := by
  obtain ⟨cell, isCell, planned⟩ := List.mem_flatMap.mp pending
  have accounts := accounts_cellsOf m runs isCell
  have plans := cell.plans_pending
  intro taken
  have used : p.replicate ∈ cell.usedReplicates := by
    have inCell : cell.place = (Identifier.key p.taskId, Identifier.key p.conditionId) := by
      rw [plans.carries p planned]
      rfl
    unfold RunValidation.place? at taken
    split at taken
    · cases taken
    case h_2 n number =>
      split at taken
      · obtain ⟨task, condition, equal⟩ : Identifier.key r.taskId = Identifier.key p.taskId ∧
            Identifier.key r.conditionId = Identifier.key p.conditionId ∧ n = p.replicate := by
          simpa [PendingRun.place] using taken
        refine (accounts.mem_used_iff _).mpr
          ⟨plans.leastFree.positive _ (List.mem_map_of_mem planned), r, member, ?_, ?_⟩
        · rw [Run.isInCell_iff, inCell, task, condition]
        · rw [number, equal]
      · cases taken
  exact plans.leastFree.unused _ (List.mem_map_of_mem planned) used

end Worklist

namespace Draft

def issuesOf (m : Manifest) (earlier : List Run) (draft : Run) : List Issue :=
  (if earlier.any fun r => Identifier.same r.runId draft.runId then
    [.error .run draft.runId ("duplicate run_id " ++ Text.quoted draft.runId)] else []) ++
    (if (m.condition? draft.conditionId).any (·.toolsEnabled) then
      [.warning .run draft.runId ("treatment condition " ++ Text.quoted draft.conditionId ++
        " made no treatment tool calls")] else [])

def issuesFrom (m : Manifest) : (earlier : List Run) → (drafts : List Run) → List Issue
  | _, [] => []
  | earlier, d :: rest => issuesOf m earlier d ++ issuesFrom m (earlier ++ [d]) rest

section Planned

variable {m : Manifest} {runs : List Run} {p : PendingRun}
  (pending : p ∈ (Worklist.ofRuns m runs).pendingRuns)
include pending

theorem allBlank_runId : Text.allBlank p.runId = false := by
  have member := toList_runId pending
  rw [← Bool.not_eq_true, Text.allBlank, List.all_eq_true]
  intro all
  exact absurd (all '_' member) (by decide)

private theorem isSome_condition? : (m.condition? p.conditionId).isSome = true := by
  obtain ⟨t, -, c, isCondition, planned, -⟩ := of_mem_pendingRuns pending
  rw [Manifest.isSome_condition?_iff, planned]
  exact ⟨c, isCondition, Identifier.same_refl c.id⟩

private theorem isSome_task? : (m.task? p.taskId).isSome = true := by
  obtain ⟨t, isTask, c, -, planned, -⟩ := of_mem_pendingRuns pending
  rw [Manifest.isSome_task?_iff, planned]
  exact ⟨t, isTask, Identifier.same_refl t.id⟩

private theorem place?_record : RunValidation.place? m (record m p) = some p.place := by
  obtain ⟨-, -, -, -, -, positive, -⟩ := of_mem_pendingRuns pending
  have condition := isSome_condition? pending
  have task := isSome_task? pending
  simp [RunValidation.place?, record, PendingRun.place, positive, condition, task]

private theorem idIssues_record (earlier : List Run) :
    RunValidation.idIssues earlier (record m p) =
      if earlier.any fun r => Identifier.same r.runId (record m p).runId then
        [.error .run (record m p).runId ("duplicate run_id " ++ Text.quoted (record m p).runId)]
      else [] := by
  have named : Text.allBlank (record m p).runId = false := allBlank_runId pending
  have seen : (earlier.filterMap RunValidation.idKey?).contains
      (Identifier.key (record m p).runId) =
        earlier.any fun r => Identifier.same r.runId (record m p).runId := by
    rw [Bool.eq_iff_iff, List.contains_iff_mem, List.mem_filterMap, List.any_eq_true]
    refine exists_congr fun r => and_congr_right fun _ => ?_
    rw [Identifier.same_iff_key_eq, RunValidation.idKey?]
    split
    case isTrue blank =>
      refine iff_of_false (by simp) fun equal => ?_
      have alike := Identifier.allBlank_congr ((Identifier.same_iff_key_eq _ _).mpr equal)
      rw [blank, named] at alike
      cases alike
    case isFalse => exact Option.some_inj
  simp only [RunValidation.idIssues, RunValidation.idKey?, named, seen, Bool.false_eq_true,
    if_false]

private theorem referenceIssues_record : RunValidation.referenceIssues m (record m p) = [] := by
  have condition : (m.condition? (record m p).conditionId).isNone = false := by
    rw [Option.isNone_eq_false_iff]
    exact isSome_condition? pending
  have task : (m.task? (record m p).taskId).isNone = false := by
    rw [Option.isNone_eq_false_iff]
    exact isSome_task? pending
  simp [RunValidation.referenceIssues, condition, task]

private theorem replicateIssues_record {earlier : List Run}
    (free : ∀ r ∈ earlier, RunValidation.place? m r ≠ some p.place) :
    RunValidation.replicateIssues m earlier (record m p) = [] := by
  obtain ⟨-, -, -, -, -, positive, -⟩ := of_mem_pendingRuns pending
  have number : (record m p).replicate = some p.replicate := rfl
  have unseen : p.place ∉ earlier.filterMap (RunValidation.place? m) := by
    rw [List.mem_filterMap]
    rintro ⟨r, member, taken⟩
    exact free r member taken
  have valid : ¬ p.replicate ≤ 0 := by omega
  simp [RunValidation.replicateIssues, number, place?_record pending, valid, unseen,
    -List.mem_filterMap]

omit pending in
private theorem toolIssues_record (loadable : m.Loadable) (p : PendingRun) :
    RunValidation.toolIssues m (record m p) =
      if (m.condition? (record m p).conditionId).any (·.toolsEnabled) then
        [.warning .run (record m p).runId ("treatment condition " ++
          Text.quoted (record m p).conditionId ++ " made no treatment tool calls")]
      else [] := by
  have unused (t : Tooling) : t.wasUsed (record m p) = false := rfl
  have arm : (record m p).conditionId = p.conditionId := rfl
  have clean : RunValidation.isContaminated m (record m p) = false := by
    simp only [RunValidation.isContaminated, unused, Bool.and_false]
    split <;> rfl
  have offered : RunValidation.lacksOffer m (record m p) = false := by
    rw [RunValidation.lacksOffer, arm]
    cases found : m.condition? p.conditionId with
    | none => rfl
    | some c =>
      cases enabled : c.toolsEnabled with
      | false => simp [enabled]
      | true =>
        obtain ⟨start, member, given⟩ := loadable.hasStart
        have tool := Tooling.isTreatmentTool_of_mem member given
        have offer : (Tooling.ofList m.toolNameStarts).wasOffered (record m p) = true := by
          rw [Tooling.wasOffered, record, found, Option.any_some, enabled]
          exact List.any_eq_true.mpr ⟨start, member, tool⟩
        simp [offer]
  have usage : RunValidation.lacksUsage m (record m p) =
      (m.condition? (record m p).conditionId).any (·.toolsEnabled) := by
    rw [RunValidation.lacksUsage]
    cases m.condition? (record m p).conditionId <;> simp [unused]
  simp [RunValidation.toolIssues, clean, offered, usage]

/-- A draft whose place is free causes no issues but those of its identifier and of its tools. -/
private theorem issuesOf_record (loadable : m.Loadable) {earlier : List Run}
    (free : ∀ r ∈ earlier, RunValidation.place? m r ≠ some p.place) :
    RunValidation.issuesOf m earlier (record m p) = issuesOf m earlier (record m p) := by
  have score : RunValidation.scoreIssues (record m p) = [] := rfl
  rw [RunValidation.issuesOf, issuesOf, idIssues_record pending, referenceIssues_record pending,
    replicateIssues_record pending free, toolIssues_record loadable, score, List.append_nil,
    List.append_nil, List.append_nil]

end Planned

section Drafts

variable {m : Manifest} {runs : List Run}

private theorem issuesOf_perm {earlier others : List Run} (perm : earlier.Perm others)
    (draft : Run) : issuesOf m earlier draft = issuesOf m others draft := by
  rw [issuesOf, issuesOf, perm.any_eq]

private theorem issuesFrom_records (loadable : m.Loadable) {planned : List PendingRun}
    (pending : planned ⊆ (Worklist.ofRuns m runs).pendingRuns)
    (distinct : (planned.map PendingRun.place).Nodup) {earlier others : List Run}
    (perm : earlier.Perm others)
    (free : ∀ p ∈ planned, ∀ r ∈ earlier, RunValidation.place? m r ≠ some p.place) :
    RunValidation.issuesFrom m earlier (planned.map (record m)) =
      issuesFrom m others (planned.map (record m)) := by
  -- A draft that has been looked at has taken its own place, which no later draft wants.
  induction planned generalizing earlier others with
  | nil => rfl
  | cons p rest ih =>
    obtain ⟨isPending, pending⟩ := List.cons_subset.mp pending
    obtain ⟨unique, distinct⟩ := List.nodup_cons.mp distinct
    obtain ⟨here, there⟩ := List.forall_mem_cons.mp free
    have later : ∀ q ∈ rest, ∀ r ∈ record m p :: earlier,
        RunValidation.place? m r ≠ some q.place := by
      intro q member
      rw [List.forall_mem_cons, place?_record isPending]
      refine ⟨fun equal => unique ?_, there q member⟩
      rw [Option.some.inj equal]
      exact List.mem_map_of_mem member
    have grown : (record m p :: earlier).Perm (others ++ [record m p]) :=
      (perm.cons _).trans (List.perm_append_singleton _ _).symm
    rw [List.map_cons, RunValidation.issuesFrom, issuesFrom, ih pending distinct grown later,
      issuesOf_record isPending loadable here, issuesOf_perm perm]

/-- Drafts validate cleanly.  Every run that a loadable manifest still wants has a draft; put behind
the runs that are there, these drafts leave the issues of those runs as they are, cause issues of
their identifiers and of treatment tools that were not called, and make the runs enough. -/
theorem issues_append_drafts (accepted : m.checkInvariants = .ok ()) (runs : List Run) :
    ∃ drafts, (Worklist.ofRuns m runs).pendingRuns.mapM (ofPending m) = .ok drafts ∧
      (RunValidation.ofRuns m (runs ++ drafts)).issues =
        (RunValidation.ofRuns m runs).issues.filter (fun issue => issue.scope = .run) ++
          issuesFrom m runs drafts := by
  have loadable := (Manifest.checkInvariants_eq_ok_iff m).mp accepted
  let planned := (Worklist.ofRuns m runs).pendingRuns
  refine ⟨planned.map (record m), ?_, ?_⟩
  · rw [mapM_eq_ok_iff, List.forall₂_map_right_iff, List.forall₂_same]
    exact fun p pending => ofPending_eq_ok pending
  · have enough : RunValidation.coverageIssues m (runs ++ planned.map (record m)) = [] := by
      have covered : m.expectedRuns ≤ runs.length + planned.length :=
        (Nat.mod_le _ _).trans (Worklist.neededRuns_le loadable runs)
      rw [RunValidation.coverageIssues, List.length_append, List.length_map, if_neg (by omega)]
    have drafted := issuesFrom_records loadable (List.Subset.refl planned)
      (Worklist.nodup_places_pendingRuns loadable runs) runs.reverse_perm
      fun p pending r member =>
        Worklist.place?_ne_of_mem_pendingRuns pending (List.mem_reverse.mp member)
    rw [RunValidation.filter_scope_issues, RunValidation.ofRuns, enough, List.append_nil,
      RunValidation.issuesFrom_append, List.append_nil, drafted]

end Drafts

/-- A run outside of the plan has the identifier of a draft. -/
theorem issues_append_drafts_pair : Manifest.pair.checkInvariants = .ok () ∧
    ∃ drafts, (Worklist.ofRuns Manifest.pair
        [Run.ofPair "Fix__Tools__r01" "PLAIN" (some 2) []]).pendingRuns.mapM
          (ofPending Manifest.pair) = .ok drafts ∧
      (RunValidation.ofRuns Manifest.pair
        ([Run.ofPair "Fix__Tools__r01" "PLAIN" (some 2) []] ++ drafts)).issues =
        (RunValidation.ofRuns Manifest.pair
          [Run.ofPair "Fix__Tools__r01" "PLAIN" (some 2) []]).issues.filter
            (fun issue => issue.scope = .run) ++
          issuesFrom Manifest.pair [Run.ofPair "Fix__Tools__r01" "PLAIN" (some 2) []] drafts :=
  ⟨by decide +kernel, issues_append_drafts (by decide +kernel) _⟩

end Draft
end ToolTrial
