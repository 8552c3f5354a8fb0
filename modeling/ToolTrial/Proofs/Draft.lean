import ToolTrial.Draft
import ToolTrial.Proofs.Completion
import ToolTrial.Proofs.Loading
import ToolTrial.Proofs.RunDocument
import ToolTrial.Proofs.Store

/-!
Drafts of planned runs.  Every planned run of a loadable manifest has a draft, which lies in the
directory and stands for that run.
-/

set_option autoImplicit false
set_option relaxedAutoImplicit false

namespace ToolTrial

namespace PendingRun

theorem mem_replicateText {n : Int} {c : Char} (member : c ∈ (replicateText n).toList) :
    c = '-' ∨ c.isDigit = true := by
  rw [replicateText] at member
  split at member
  · rw [String.toList_append, List.mem_append] at member
    rcases member with zero | digit
    · obtain rfl : c = '0' := by simpa using zero
      exact Or.inr (by decide)
    · exact Json.mem_toString digit
  · exact Json.mem_toString member

theorem fileSafe_idOf_iff (taskId conditionId : String) (n : Int) :
    Identifier.fileSafe (idOf taskId conditionId n) = true ↔
      Identifier.fileSafe taskId = true ∧ Identifier.fileSafe conditionId = true := by
  have chars : (idOf taskId conditionId n).toList = taskId.toList ++ '_' :: ([] ++ '_' ::
      (conditionId.toList ++ '_' :: ([] ++ '_' :: ([] ++ 'r' :: (replicateText n).toList)))) := by
    simp [idOf, String.toList_append]
  have noStop : Identifier.climbs (replicateText n).toList = false := by
    refine Identifier.climbs_eq_false fun member => ?_
    rcases mem_replicateText member with sign | digit
    · exact absurd sign (by decide)
    · exact absurd digit (by decide)
  have climbs : Identifier.climbs (idOf taskId conditionId n).toList =
      (Identifier.climbs taskId.toList || Identifier.climbs conditionId.toList) := by
    rw [chars]
    repeat rw [Identifier.climbs_append_cons (by decide)]
    simp [Identifier.climbs, noStop]
  have noSeparator {c : Char} (apart : c ≠ '_' ∧ c ≠ 'r' ∧ c ≠ '-' ∧ c.isDigit = false) :
      c ∈ (idOf taskId conditionId n).toList ↔ c ∈ taskId.toList ∨ c ∈ conditionId.toList := by
    obtain ⟨noLine, noR, noSign, noDigit⟩ := apart
    have noNumber : c ∉ (replicateText n).toList := by
      intro member
      rcases mem_replicateText member with sign | digit
      · exact noSign sign
      · simp [noDigit] at digit
    simp [chars, noLine, noR, noNumber]
  rw [Identifier.fileSafe_iff, Identifier.fileSafe_iff, Identifier.fileSafe_iff, climbs,
    noSeparator (by decide), noSeparator (by decide)]
  simp only [not_or, Bool.or_eq_false_iff]
  tauto

end PendingRun

section Planned

variable {m : Manifest} {runs : List Run} {p : PendingRun}

private theorem length_used_le {target : Nat} {runs : List Run} {c : Cell}
    (accounts : c.Accounts target runs) : c.usedReplicates.length ≤ c.observedRuns := by
  have inside : c.usedReplicates.map some ⊆
      (runs.filter fun r => r.isInCell c.taskId c.conditionId).map (·.replicate) := by
    intro o member
    obtain ⟨n, used, rfl⟩ := List.mem_map.mp member
    obtain ⟨-, r, isRun, inCell, number⟩ := (accounts.mem_used_iff n).mp used
    exact List.mem_map.mpr ⟨r, List.mem_filter.mpr ⟨isRun, inCell⟩, number⟩
  have distinct : (c.usedReplicates.map some).Nodup :=
    accounts.ascending.nodup.map (Option.some_injective _)
  have fits := (List.subperm_of_subset distinct inside).length_le
  rw [accounts.observed_eq, List.countP_eq_length_filter]
  simpa using fits

theorem of_mem_pendingRuns (pending : p ∈ (Worklist.ofRuns m runs).pendingRuns) :
    ∃ t ∈ m.tasks, ∃ c ∈ m.conditions, p = PendingRun.of t.id c.id p.replicate ∧
      0 < p.replicate ∧ p.replicate ≤ m.runsPerCell := by
  obtain ⟨cell, isCell, planned⟩ := List.mem_flatMap.mp pending
  have accounts := Worklist.accounts_cellsOf m runs isCell
  have plans := cell.plans_pending
  obtain ⟨t, isTask, inside⟩ := List.mem_flatMap.mp isCell
  obtain ⟨c, isCondition, rfl⟩ := List.mem_map.mp inside
  have number : p.replicate ∈ Replicates.free
      (Cell.of m.runsPerCell runs t.id c.id).usedReplicates
      (Cell.of m.runsPerCell runs t.id c.id).missingRuns := by
    rw [← Cell.map_replicate_pending]
    exact List.mem_map_of_mem planned
  refine ⟨t, isTask, c, isCondition, plans.carries p planned, ?_, ?_⟩
  · exact plans.leastFree.positive _ (List.mem_map_of_mem planned)
  · have bound := Replicates.le_of_mem_free number
    have used := length_used_le accounts
    have conserved := accounts.conserved
    have missing : 0 < (Cell.of m.runsPerCell runs t.id c.id).missingRuns := by
      have taken := List.length_pos_of_mem number
      rwa [Replicates.length_free] at taken
    rw [accounts.target_eq] at conserved
    omega

theorem toList_runId (pending : p ∈ (Worklist.ofRuns m runs).pendingRuns) :
    '_' ∈ p.runId.toList := by
  obtain ⟨t, -, c, -, planned, -⟩ := of_mem_pendingRuns pending
  rw [planned]
  simp [PendingRun.of, PendingRun.idOf]

theorem fileSafe_runId (loadable : m.Loadable)
    (pending : p ∈ (Worklist.ofRuns m runs).pendingRuns) : Identifier.fileSafe p.runId = true := by
  obtain ⟨t, isTask, c, isCondition, planned, -⟩ := of_mem_pendingRuns pending
  rw [planned]
  exact (PendingRun.fileSafe_idOf_iff _ _ _).mpr
    ⟨loadable.safeTasks t isTask, loadable.safeConditions c isCondition⟩

end Planned

namespace Draft

def documentName (runId : String) : String := runId ++ ".json"

def record (m : Manifest) (p : PendingRun) : Run where
  runId := p.runId
  taskId := p.taskId
  conditionId := p.conditionId
  replicate := some p.replicate
  agent := placeholder
  model := placeholder
  succeeded := false
  compilePassed := false
  testsPassed := false
  durationSeconds := 0.0
  toolsOffered := if (m.condition? p.conditionId).any (·.toolsEnabled) then m.toolNameStarts else []
  toolCalls := []
  tokenUsage := none
  reflection := some ⟨placeholder, [], [], none⟩

section Planned

variable {m : Manifest} {runs : List Run} {p : PendingRun}

theorem isName_documentName (loadable : m.Loadable)
    (pending : p ∈ (Worklist.ofRuns m runs).pendingRuns) :
    Path.IsName (documentName p.runId) := by
  have safe := (Identifier.fileSafe_iff _).mp (fileSafe_runId loadable pending)
  exact Path.isName_append safe.1 (by decide) (by decide)

theorem path_eq_ok_iff (dir : Path) (runId : String) (place : Path) :
    path dir runId = .ok place ↔ (runId ≠ "" ∧ Identifier.fileSafe runId = true) ∧
      dir.child (documentName runId) = place := by
  rw [path]
  by_cases refused : (runId.isEmpty || !Identifier.fileSafe runId) = true
  · rw [if_pos refused]
    simp only [Bool.or_eq_true, String.isEmpty_iff, Bool.not_eq_true'] at refused
    simp only [reduceCtorEq, false_iff]
    rintro ⟨⟨given, safe⟩, -⟩
    rcases refused with empty | notSafe
    · exact given empty
    · simp [notSafe] at safe
  · rw [if_neg refused]
    simp only [Bool.or_eq_true, String.isEmpty_iff, Bool.not_eq_true', not_or,
      Bool.not_eq_false] at refused
    rw [and_iff_right refused, Except.ok.injEq]
    rfl

theorem path_of_safe (pending : p ∈ (Worklist.ofRuns m runs).pendingRuns)
    (safe : Identifier.fileSafe p.runId = true) (dir : Path) :
    path dir p.runId = .ok (dir.child (documentName p.runId)) := by
  have given : p.runId ≠ "" := by
    have member := toList_runId pending
    intro empty
    simp [empty] at member
  exact (path_eq_ok_iff dir p.runId _).mpr ⟨⟨given, safe⟩, rfl⟩

theorem path_eq_ok (loadable : m.Loadable)
    (pending : p ∈ (Worklist.ofRuns m runs).pendingRuns) (dir : Path) :
    path dir p.runId = .ok (dir.child (documentName p.runId)) :=
  path_of_safe pending (fileSafe_runId loadable pending) dir

theorem ofPending_eq_ok (pending : p ∈ (Worklist.ofRuns m runs).pendingRuns) :
    ofPending m p = .ok (record m p) := by
  obtain ⟨t, -, c, isCondition, planned, -⟩ := of_mem_pendingRuns pending
  have declared : (m.condition? p.conditionId).isSome = true := by
    rw [Manifest.isSome_condition?_iff, planned]
    exact ⟨c, isCondition, Identifier.same_refl c.id⟩
  obtain ⟨c', found⟩ := Option.isSome_iff_exists.mp declared
  simp [ofPending, record, found]

theorem isSigned_of_pending (pending : p ∈ (Worklist.ofRuns m runs).pendingRuns)
    (small : m.runsPerCell < UInt32.size) : IsSigned p.replicate := by
  obtain ⟨-, -, -, -, -, positive, bound⟩ := of_mem_pendingRuns pending
  unfold UInt32.size at small
  constructor <;> omega

private theorem encodable_record {m : Manifest} {p : PendingRun} (small : IsSigned p.replicate) :
    (record m p).Encodable := by
  refine ⟨?_, ?_, ?_, ?_⟩
  · show (0.0 : Float).isFinite = true
    decide +kernel
  · intro n number
    obtain rfl : p.replicate = n := by simpa [record] using number
    exact small
  · intro n number
    simp [record, Run.helpfulness] at number
  · intro u used
    simp [record] at used

theorem readable_record {m : Manifest} {p : PendingRun} (small : IsSigned p.replicate) :
    Json.Readable Json.GivenBack Json.depthLimit (record m p).toJson := by
  have zero : Json.GivenBack 0.0 := by decide +kernel
  show Json.Readable Json.GivenBack (124 + 3) (record m p).toJson
  exact Run.readable_toJson (encodable_record small) zero

/-- The document of a draft is accepted as that of a run exactly when the task and the condition
have names, and then it stands for the draft. -/
theorem ofDocument_record_iff (pending : p ∈ (Worklist.ofRuns m runs).pendingRuns)
    (small : IsSigned p.replicate) (at_ : Path) (r : Run) :
    Run.ofDocument at_ (record m p).toJson = .ok r ↔
      (Text.allBlank p.taskId = false ∧ Text.allBlank p.conditionId = false) ∧ r = record m p := by
  have encodable := encodable_record (m := m) small
  have named : Text.allBlank p.runId = false := by
    have member := toList_runId pending
    rw [← Bool.not_eq_true, Text.allBlank, List.all_eq_true]
    intro all
    exact absurd (all '_' member) (by decide)
  have duration : Run.isDuration 0.0 = true := by decide +kernel
  rw [Run.ofDocument_eq_ok_iff, Run.decode_toJson encodable]
  constructor
  · rintro ⟨-, decoded, usable⟩
    obtain rfl : record m p = r := by simpa using decoded
    exact ⟨⟨usable.hasTask, usable.hasCondition⟩, rfl⟩
  · rintro ⟨⟨task, condition⟩, rfl⟩
    exact ⟨Run.accepts_toJson _ encodable.finite, rfl, named, task, condition, duration⟩

end Planned
end Draft
end ToolTrial
