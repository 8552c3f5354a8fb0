import Mathlib.Data.List.Pairwise
import ToolTrial.Proofs.Drafting

/-!
What the identifiers of planned runs tell apart.  The identifier of a planned run gives away its
replicate number and the joined name of its cell, but not where in that name the task ends: the
planned runs of a manifest have identifiers and drafts of their own exactly when no two of its cells
have one joined name.
-/

set_option autoImplicit false
set_option relaxedAutoImplicit false

namespace ToolTrial

section Joined

variable {α : Type} {a : α} {front front' back back' : List α}

private theorem append_cons_inj_of_not_mem_right (last : a ∉ back) (last' : a ∉ back') :
    front ++ a :: back = front' ++ a :: back' ↔ front = front' ∧ back = back' := by
  constructor
  · intro equal
    rcases List.append_eq_append_iff.mp equal with ⟨between, rfl, tail⟩ | ⟨between, rfl, tail⟩
    · cases between with
      | nil => exact ⟨(List.append_nil _).symm, (List.cons.inj tail).2⟩
      | cons b between => exact absurd (by simp [(List.cons.inj tail).2]) last
    · cases between with
      | nil => exact ⟨List.append_nil _, (List.cons.inj tail).2.symm⟩
      | cons b between => exact absurd (by simp [(List.cons.inj tail).2]) last'
  · rintro ⟨rfl, rfl⟩
    rfl

private theorem append_cons_inj_of_not_mem_left (first : a ∉ front) (first' : a ∉ front') :
    front ++ a :: back = front' ++ a :: back' ↔ front = front' ∧ back = back' := by
  have turned : back.reverse ++ a :: front.reverse = back'.reverse ++ a :: front'.reverse ↔
      back.reverse = back'.reverse ∧ front.reverse = front'.reverse :=
    append_cons_inj_of_not_mem_right (mt List.mem_reverse.mp first) (mt List.mem_reverse.mp first')
  rw [List.reverse_inj, List.reverse_inj, and_comm] at turned
  rw [← turned, ← List.reverse_inj]
  simp

private theorem toList_key (id : String) :
    (Identifier.key id).toList = id.toList.map Char.toLower :=
  Text.toList_lower id

private theorem toLower_of_isDigit {c : Char} (digit : c.isDigit = true) : c.toLower = c := by
  have below : c.val ≤ '9'.val := by
    rw [Char.isDigit, Bool.and_eq_true, decide_eq_true_iff, decide_eq_true_iff] at digit
    exact digit.2
  refine dif_neg ?_
  rintro ⟨above, -⟩
  exact absurd (UInt32.le_trans above below) (by decide)

private theorem eq_underscore_of_toLower {c : Char} (lowered : c.toLower = '_') : c = '_' := by
  change dite _ _ _ = '_' at lowered
  split at lowered
  · rename_i capital
    have below := UInt32.le_iff_toNat_le.mp capital.2
    have above := UInt32.le_iff_toNat_le.mp capital.1
    have value := congrArg (fun d => d.val.toNat) lowered
    simp at above below value
    omega
  · exact lowered

end Joined

namespace PendingRun

/-- The common part of the identifiers of the planned runs in a cell. -/
def cellName (taskId conditionId : String) : String := taskId ++ "__" ++ conditionId

private theorem ofDigitChars_replicateText {n : Int} (natural : 0 ≤ n) :
    (Nat.ofDigitChars 10 (replicateText n).toList 0 : Int) = n := by
  obtain ⟨k, rfl⟩ := Int.eq_ofNat_of_zero_le natural
  have digits : (toString (k : Int)).toList = Nat.toDigits 10 k := Nat.toList_repr
  have value : Nat.ofDigitChars 10 (Nat.toDigits 10 k) 0 = k := Nat.ofDigitChars_ten_toDigits
  rw [replicateText]
  split
  · rw [String.toList_append, digits]
    show (Nat.ofDigitChars 10 ('0' :: Nat.toDigits 10 k) 0 : Int) = k
    rw [Nat.ofDigitChars_cons]
    exact congrArg Nat.cast value
  · rw [digits, value]

private theorem toList_key_idOf (taskId conditionId : String) (n : Int) :
    (Identifier.key (idOf taskId conditionId n)).toList =
      ((Identifier.key (cellName taskId conditionId)).toList ++ ['_', '_']) ++
        'r' :: (replicateText n).toList := by
  have number : (replicateText n).toList.map Char.toLower = (replicateText n).toList := by
    refine (List.map_congr_left fun c member => ?_).trans (List.map_id _)
    rcases mem_replicateText member with rfl | digit
    · rfl
    · exact toLower_of_isDigit digit
  have parts : (idOf taskId conditionId n).toList =
      ((cellName taskId conditionId).toList ++ ['_', '_']) ++ 'r' :: (replicateText n).toList := by
    simp [idOf, cellName]
  rw [toList_key, parts, toList_key]
  simp only [List.map_append, List.map_cons, List.map_nil, number]
  rfl

/-- The identifier of a planned run tells the joined name of its cell and its replicate number. -/
theorem same_idOf_iff {t c t' c' : String} {n k : Int} (natural : 0 ≤ n) (natural' : 0 ≤ k) :
    Identifier.same (idOf t c n) (idOf t' c' k) = true ↔
      Identifier.same (cellName t c) (cellName t' c') = true ∧ n = k := by
  have noR (i : Int) : 'r' ∉ (replicateText i).toList := by
    intro member
    rcases mem_replicateText member with sign | digit
    · exact absurd sign (by decide)
    · exact absurd digit (by decide)
  have numbers : (replicateText n).toList = (replicateText k).toList ↔ n = k := by
    constructor
    · intro equal
      rw [← ofDigitChars_replicateText natural, equal, ofDigitChars_replicateText natural']
    · rintro rfl
      rfl
  rw [Identifier.same_iff_key_eq, Identifier.same_iff_key_eq, ← String.toList_inj,
    toList_key_idOf, toList_key_idOf, append_cons_inj_of_not_mem_right (noR n) (noR k),
    List.append_left_inj, String.toList_inj, numbers]

end PendingRun

/-- No two cells of a manifest have one joined name. -/
def Manifest.CellsNamedApart (m : Manifest) : Prop :=
  ∀ t ∈ m.tasks, ∀ c ∈ m.conditions, ∀ t' ∈ m.tasks, ∀ c' ∈ m.conditions,
    Identifier.same (PendingRun.cellName t.id c.id) (PendingRun.cellName t'.id c'.id) = true →
      t = t' ∧ c = c'

theorem Manifest.Loadable.cellsNamedApart {m : Manifest} (loadable : m.Loadable)
    (plain : ∀ t ∈ m.tasks, '_' ∉ t.id.toList) : m.CellsNamedApart := by
  intro t isTask c isCondition t' isTask' c' isCondition' named
  have noLine {s : Task} (member : s ∈ m.tasks) : '_' ∉ (Identifier.key s.id).toList := by
    rw [toList_key, List.mem_map]
    rintro ⟨d, inside, lowered⟩
    exact plain s member (eq_underscore_of_toLower lowered ▸ inside)
  have parts (s : Task) (d : Condition) : (Identifier.key (PendingRun.cellName s.id d.id)).toList =
      (Identifier.key s.id).toList ++ '_' :: '_' :: (Identifier.key d.id).toList := by
    simp [toList_key, PendingRun.cellName]
  rw [Identifier.same_iff_key_eq, ← String.toList_inj, parts, parts,
    append_cons_inj_of_not_mem_left (noLine isTask) (noLine isTask'), List.cons.injEq,
    String.toList_inj, String.toList_inj, ← Identifier.same_iff_key_eq,
    ← Identifier.same_iff_key_eq] at named
  obtain ⟨task, -, condition⟩ := named
  exact ⟨Identifier.eq_of_same_of_nodup _ loadable.distinctTasks isTask isTask' task,
    Identifier.eq_of_same_of_nodup _ loadable.distinctConditions isCondition isCondition' condition⟩

namespace Worklist

/-- The planned runs are told apart by their identifiers, and their drafts by their places. -/
structure TellsApart (m : Manifest) (runs : List Run) : Prop where
  ids : (ofRuns m runs).pendingRuns.Pairwise fun p q => Identifier.same p.runId q.runId = false
  drafts : ∀ dir, ∃ places,
    ((ofRuns m runs).pendingRuns.mapM fun p => Draft.path dir p.runId) = .ok places ∧
      places.Pairwise fun p q => p.same q = false

variable {m : Manifest} {runs : List Run}

theorem same_runId_iff {p q : PendingRun} (pending : p ∈ (ofRuns m runs).pendingRuns)
    (pending' : q ∈ (ofRuns m runs).pendingRuns) :
    Identifier.same p.runId q.runId = true ↔
      Identifier.same (PendingRun.cellName p.taskId p.conditionId)
        (PendingRun.cellName q.taskId q.conditionId) = true ∧ p.replicate = q.replicate := by
  obtain ⟨t, -, c, -, planned, positive, -⟩ := of_mem_pendingRuns pending
  obtain ⟨t', -, c', -, planned', positive', -⟩ := of_mem_pendingRuns pending'
  rw [planned, planned']
  exact PendingRun.same_idOf_iff positive.le positive'.le

private theorem drafts_apart (loadable : m.Loadable)
    (ids : (ofRuns m runs).pendingRuns.Pairwise fun p q =>
      Identifier.same p.runId q.runId = false) (dir : Path) :
    ((ofRuns m runs).pendingRuns.map (Draft.placeOf dir)).Pairwise fun p q =>
      p.same q = false := by
  rw [List.pairwise_map]
  refine ids.imp_of_mem fun pending pending' apart => ?_
  rw [← Bool.not_eq_true] at apart ⊢
  rw [Draft.placeOf, Draft.placeOf, Path.same_child_iff dir
    (Draft.isName_documentName loadable pending) (Draft.isName_documentName loadable pending')]
  intro equal
  rw [Draft.documentName, Draft.documentName, String.append_left_inj] at equal
  exact apart (equal ▸ Identifier.same_refl _)

private theorem first_mem_pendingRuns (loadable : m.Loadable) {t : Task} (isTask : t ∈ m.tasks)
    {c : Condition} (isCondition : c ∈ m.conditions) :
    PendingRun.of t.id c.id 1 ∈ (ofRuns m []).pendingRuns := by
  refine List.mem_flatMap.mpr ⟨Cell.of m.runsPerCell [] t.id c.id, ?_, ?_⟩
  · exact List.mem_flatMap.mpr ⟨t, isTask, List.mem_map_of_mem isCondition⟩
  · refine List.mem_map.mpr ⟨1, ?_, rfl⟩
    show 1 ∈ Replicates.free [] (m.runsPerCell - 0)
    obtain ⟨k, size⟩ := Nat.exists_eq_succ_of_ne_zero loadable.wantsRuns.ne'
    simp [Replicates.free, size, List.range_succ_eq_map]

/-- The planned runs of a manifest are always told apart exactly when its cells are. -/
theorem tellsApart_iff_cellsNamedApart (accepted : m.checkInvariants = .ok ()) :
    (∀ runs, TellsApart m runs) ↔ m.CellsNamedApart := by
  have loadable := (Manifest.checkInvariants_eq_ok_iff m).mp accepted
  constructor
  · intro apart t isTask c isCondition t' isTask' c' isCondition' named
    have pending := first_mem_pendingRuns loadable isTask isCondition
    have pending' := first_mem_pendingRuns loadable isTask' isCondition'
    have shared := (same_runId_iff pending pending').mpr ⟨named, rfl⟩
    have equal : PendingRun.of t.id c.id 1 = PendingRun.of t'.id c'.id 1 := by
      by_contra different
      have symmetric : Std.Symm fun p q : PendingRun => Identifier.same p.runId q.runId = false :=
        ⟨fun p q apart => Identifier.same_comm p.runId q.runId ▸ apart⟩
      have distinct := (apart []).ids.forall pending pending' different
      rw [shared] at distinct
      exact Bool.noConfusion distinct
    rw [PendingRun.of, PendingRun.of, PendingRun.mk.injEq] at equal
    obtain ⟨-, task, condition, -⟩ := equal
    exact ⟨Identifier.eq_of_same_of_nodup _ loadable.distinctTasks isTask isTask'
        (task ▸ Identifier.same_refl _),
      Identifier.eq_of_same_of_nodup _ loadable.distinctConditions isCondition isCondition'
        (condition ▸ Identifier.same_refl _)⟩
  · intro apart runs
    have ids : (ofRuns m runs).pendingRuns.Pairwise fun p q =>
        Identifier.same p.runId q.runId = false := by
      refine (nodup_pendingRuns loadable runs).pairwise_of_forall_ne fun p pending q pending' => ?_
      intro different
      rw [← Bool.not_eq_true, same_runId_iff pending pending']
      rintro ⟨named, number⟩
      obtain ⟨t, isTask, c, isCondition, planned, -⟩ := of_mem_pendingRuns pending
      obtain ⟨t', isTask', c', isCondition', planned', -⟩ := of_mem_pendingRuns pending'
      rw [planned, planned'] at named
      obtain ⟨rfl, rfl⟩ := apart t isTask c isCondition t' isTask' c' isCondition' named
      exact different (by rw [planned, planned', number])
    exact ⟨ids, fun dir => ⟨_, Draft.mapM_path_eq_ok loadable dir, drafts_apart loadable ids dir⟩⟩

/-- The task of the small experiment has no underscore in its name. -/
theorem tellsApart_pair : Manifest.pair.checkInvariants = .ok () ∧
    ∀ runs, TellsApart Manifest.pair runs := by
  have accepted : Manifest.pair.checkInvariants = .ok () := by decide +kernel
  have loadable := (Manifest.checkInvariants_eq_ok_iff _).mp accepted
  have named := loadable.cellsNamedApart (by decide +kernel)
  exact ⟨accepted, (tellsApart_iff_cellsNamedApart accepted).mpr named⟩

/-- An experiment in which two cells have the joined name `a__b__c`. -/
private def underscored : Manifest where
  experimentId := "underscored"
  description := ""
  toolNameStarts := ["roslyn"]
  conditions := [⟨"c", "", false, none⟩, ⟨"b__c", "", true, none⟩]
  tasks := [⟨"a", "", "repo", "abc", ["make"], none, none⟩,
    ⟨"a__b", "", "repo", "abc", ["make"], none, none⟩]
  runsPerCell := 1

/-- An accepted manifest can plan two runs with one identifier. -/
theorem not_pairwise_runId : ¬ ∀ (m : Manifest) (runs : List Run), m.checkInvariants = .ok () →
    (ofRuns m runs).pendingRuns.Pairwise fun p q => Identifier.same p.runId q.runId = false := by
  intro all
  exact absurd (all underscored [] (by decide +kernel)) (by decide +kernel)

end Worklist
end ToolTrial
