import Mathlib.Algebra.GroupWithZero.Nat
import ToolTrial.Proofs.Manifest
import ToolTrial.Proofs.Replicates

/-!
What a worklist says.  Every cell accounts for its runs and plans as many as it lacks; no run lies
in two cells, so that the plan covers at least the difference between the runs that are expected and
those that are there.
-/

set_option autoImplicit false
set_option relaxedAutoImplicit false

namespace ToolTrial

open Replicates (LeastFree)

section Tally

private theorem sum_map_countP_cons {α β : Type} (rel : α → β → Bool) (as : List α) (b : β)
    (bs : List β) : (as.map fun a => (b :: bs).countP (rel a)).sum =
      (as.map fun a => bs.countP (rel a)).sum + as.countP (rel · b) := by
  induction as with
  | nil => rfl
  | cons a as ih =>
    rw [List.map_cons, List.map_cons, List.sum_cons, List.sum_cons, List.countP_cons,
      List.countP_cons, ih]
    omega

theorem sum_countP_eq_countP_any {α β : Type} (rel : α → β → Bool) {as : List α} {bs : List β}
    (once : ∀ b ∈ bs, as.countP (rel · b) ≤ 1) :
    (as.map fun a => bs.countP (rel a)).sum = bs.countP fun b => as.any (rel · b) := by
  induction bs with
  | nil => simp
  | cons b bs ih =>
    rw [List.forall_mem_cons] at once
    have none_iff : as.any (rel · b) = false ↔ as.countP (rel · b) = 0 := by
      simp [List.countP_eq_zero]
    rw [sum_map_countP_cons, ih once.2, List.countP_cons]
    cases related : as.any (rel · b) with
    | false =>
      have none := none_iff.mp related
      simp [none]
    | true =>
      have some : as.countP (rel · b) ≠ 0 := by
        rw [Ne, ← none_iff, related]
        simp
      have one : as.countP (rel · b) = 1 := by
        have := once.1
        omega
      simp [one]

end Tally

namespace Cell

/-- A cell that counts the runs that lie in it and those that it lacks. -/
structure Accounts (target : Nat) (runs : List Run) (c : Cell) : Prop where
  target_eq : c.targetRuns = target
  observed_eq : c.observedRuns = runs.countP fun r => r.isInCell c.taskId c.conditionId
  conserved : c.observedRuns + c.missingRuns = max c.targetRuns c.observedRuns
  ascending : c.usedReplicates.Pairwise (· < ·)
  mem_used_iff : ∀ n, n ∈ c.usedReplicates ↔
    0 < n ∧ ∃ r ∈ runs, r.isInCell c.taskId c.conditionId = true ∧ r.replicate = some n

/-- As many planned runs as a cell lacks, which take its least free replicate numbers. -/
structure Plans (c : Cell) (planned : List PendingRun) : Prop where
  length_eq : planned.length = c.missingRuns
  leastFree : LeastFree c.usedReplicates (planned.map (·.replicate))
  carries : ∀ p ∈ planned, p = PendingRun.of c.taskId c.conditionId p.replicate

theorem accounts_of (target : Nat) (runs : List Run) (taskId conditionId : String) :
    (Cell.of target runs taskId conditionId).Accounts target runs := by
  obtain ⟨ascending, members⟩ := Replicates.ofList_spec
    (((runs.filter fun r => r.isInCell taskId conditionId).filterMap (·.replicate)).filter (0 < ·))
  refine ⟨rfl, List.countP_eq_length_filter.symm, ?_, ascending, fun n => (members n).trans ?_⟩
  · show (runs.filter _).length + (target - (runs.filter _).length) = max target _
    rw [Nat.add_comm]
    exact Nat.sub_add_eq_max _ _
  · simp only [List.mem_filter, List.mem_filterMap, decide_eq_true_eq]
    constructor
    · rintro ⟨⟨r, ⟨member, inCell⟩, number⟩, positive⟩
      exact ⟨positive, r, member, inCell, number⟩
    · rintro ⟨positive, r, member, inCell, number⟩
      exact ⟨⟨r, ⟨member, inCell⟩, number⟩, positive⟩

theorem map_replicate_pending (c : Cell) :
    c.pending.map (·.replicate) = Replicates.free c.usedReplicates c.missingRuns := by
  rw [pending, List.map_map]
  exact List.map_id _

theorem plans_pending (c : Cell) : c.Plans c.pending := by
  refine ⟨?_, ?_, fun p member => ?_⟩
  · rw [pending, List.length_map, Replicates.length_free]
  · rw [map_replicate_pending]
    exact Replicates.leastFree_free _ _
  · obtain ⟨n, -, rfl⟩ := List.mem_map.mp member
    rfl

/-- What tells a cell from others: the keys of its task and its condition. -/
def place (c : Cell) : String × String :=
  (Identifier.key c.taskId, Identifier.key c.conditionId)

end Cell

theorem Run.isInCell_iff (r : Run) (c : Cell) : r.isInCell c.taskId c.conditionId = true ↔
    c.place = (Identifier.key r.taskId, Identifier.key r.conditionId) := by
  rw [Run.isInCell, Bool.and_eq_true, Identifier.same_iff_key_eq, Identifier.same_iff_key_eq,
    Cell.place, Prod.mk.injEq, eq_comm, eq_comm (a := Identifier.key r.conditionId)]

namespace Worklist

variable (m : Manifest) (runs : List Run)

theorem map_ids_cellsOf : (cellsOf m runs).map (fun c => (c.taskId, c.conditionId)) =
    m.tasks.flatMap fun t => m.conditions.map fun c => (t.id, c.id) := by
  rw [cellsOf, List.map_flatMap]
  congr 1
  funext t
  rw [List.map_map]
  rfl

theorem accounts_cellsOf {c : Cell} (member : c ∈ cellsOf m runs) :
    c.Accounts m.runsPerCell runs := by
  obtain ⟨t, -, inside⟩ := List.mem_flatMap.mp member
  obtain ⟨condition, -, rfl⟩ := List.mem_map.mp inside
  exact Cell.accounts_of _ _ _ _

theorem nodup_places {m : Manifest} (loadable : m.Loadable) (runs : List Run) :
    ((cellsOf m runs).map Cell.place).Nodup := by
  have product : (cellsOf m runs).map Cell.place =
      (m.tasks.map fun t => Identifier.key t.id).product
        (m.conditions.map fun c => Identifier.key c.id) := by
    rw [cellsOf, List.map_flatMap, List.product, List.flatMap_map]
    congr 1
    funext t
    rw [List.map_map, List.map_map]
    rfl
  rw [product]
  exact loadable.distinctTasks.product loadable.distinctConditions

theorem countP_cells_le_one {cells : List Cell} (distinct : (cells.map Cell.place).Nodup)
    (r : Run) : cells.countP (fun c => r.isInCell c.taskId c.conditionId) ≤ 1 := by
  have counted : cells.countP (fun c => r.isInCell c.taskId c.conditionId) =
      (cells.map Cell.place).count (Identifier.key r.taskId, Identifier.key r.conditionId) := by
    rw [List.count, List.countP_map]
    apply List.countP_congr
    intro c _
    rw [r.isInCell_iff c, Function.comp_apply, beq_iff_eq]
  rw [counted]
  exact List.nodup_iff_count_le_one.mp distinct _

def isStray (cells : List Cell) (r : Run) : Bool :=
  cells.all fun c => !r.isInCell c.taskId c.conditionId

private theorem sum_observed_add_strays {cells : List Cell}
    (distinct : (cells.map Cell.place).Nodup) (runs : List Run) :
    (cells.map fun c => runs.countP fun r => r.isInCell c.taskId c.conditionId).sum +
      runs.countP (isStray cells) = runs.length := by
  have inside := sum_countP_eq_countP_any (fun (c : Cell) (r : Run) =>
    r.isInCell c.taskId c.conditionId) fun r (_ : r ∈ runs) => countP_cells_le_one distinct r
  have strays (r : Run) : isStray cells r = true ↔
      ¬ (cells.any fun c => r.isInCell c.taskId c.conditionId) = true := by
    simp [isStray]
  rw [inside, List.countP_congr fun r _ => (strays r).trans decide_eq_true_iff.symm]
  exact (List.length_eq_countP_add_countP _).symm

/-- Cells that conserve their runs plan at least what is expected of them all and not there, and no
more than that when none of them is overfull. -/
private theorem sum_target_le {cells : List Cell}
    (conserved : ∀ c ∈ cells, c.observedRuns + c.missingRuns = max c.targetRuns c.observedRuns) :
    (cells.map (·.targetRuns)).sum ≤
        (cells.map (·.observedRuns)).sum + (cells.map (·.missingRuns)).sum ∧
      ((cells.map (·.targetRuns)).sum =
          (cells.map (·.observedRuns)).sum + (cells.map (·.missingRuns)).sum ↔
        ∀ c ∈ cells, c.observedRuns ≤ c.targetRuns) := by
  induction cells with
  | nil => simp
  | cons c rest ih =>
    rw [List.forall_mem_cons] at conserved
    obtain ⟨here, there⟩ := conserved
    obtain ⟨atMost, exactly⟩ := ih there
    simp only [List.map_cons, List.sum_cons, List.forall_mem_cons]
    refine ⟨by omega, ?_⟩
    constructor
    · intro equal
      exact ⟨by omega, exactly.mp (by omega)⟩
    · rintro ⟨room, rooms⟩
      have equal := exactly.mpr rooms
      omega

private theorem length_flatten_eq {cells : List Cell} {blocks : List (List PendingRun)}
    (planned : List.Forall₂ Cell.Plans cells blocks) :
    blocks.flatten.length = (cells.map (·.missingRuns)).sum := by
  induction planned with
  | nil => rfl
  | cons here _ ih => simp [here.length_eq, ih]

/-- What a worklist of a manifest after some runs accounts for. -/
structure Conserves (m : Manifest) (runs : List Run) (w : Worklist) : Prop where
  expected_eq : w.expectedRuns = m.neededRuns % UInt64.size
  observed_eq : w.observedRuns = runs.length
  /-- There is one cell for each pair of a task and a condition, task by task. -/
  map_ids_cells : w.cells.map (fun c => (c.taskId, c.conditionId)) =
    m.tasks.flatMap fun t => m.conditions.map fun c => (t.id, c.id)
  nodup_places : (w.cells.map Cell.place).Nodup
  accounts : ∀ c ∈ w.cells, c.Accounts m.runsPerCell runs
  /-- The runs are planned cell by cell. -/
  plans : ∃ blocks, w.pendingRuns = blocks.flatten ∧ List.Forall₂ Cell.Plans w.cells blocks
  balance_le : (m.neededRuns : Int) - w.observedRuns ≤ w.pendingRuns.length
  balance_eq_iff : (m.neededRuns : Int) - w.observedRuns = w.pendingRuns.length ↔
    (∀ r ∈ runs, ∃ c ∈ w.cells, r.isInCell c.taskId c.conditionId = true) ∧
      ∀ c ∈ w.cells, c.observedRuns ≤ c.targetRuns
  finished : w.pendingRuns = [] → m.neededRuns ≤ w.observedRuns

private theorem sum_target_cellsOf :
    ((cellsOf m runs).map (·.targetRuns)).sum = m.neededRuns := by
  have equal : ∀ target ∈ (cellsOf m runs).map (·.targetRuns), target = m.runsPerCell := by
    intro target member
    obtain ⟨c, inside, rfl⟩ := List.mem_map.mp member
    exact (accounts_cellsOf m runs inside).target_eq
  have many : (cellsOf m runs).length = m.tasks.length * m.conditions.length := by
    simp [cellsOf, List.length_flatMap, Nat.mul_comm]
  rw [List.eq_replicate_of_mem equal, List.sum_replicate_nat, List.length_map, many,
    Manifest.neededRuns]

/-- A plan is long enough to make up for the runs that are not there. -/
theorem neededRuns_le {m : Manifest} (loadable : m.Loadable) (runs : List Run) :
    m.neededRuns ≤ runs.length + (ofRuns m runs).pendingRuns.length := by
  have accounts {c : Cell} (member : c ∈ cellsOf m runs) := accounts_cellsOf m runs member
  have observed : ((cellsOf m runs).map (·.observedRuns)).sum +
      runs.countP (isStray (cellsOf m runs)) = runs.length := by
    rw [← sum_observed_add_strays (nodup_places loadable runs) runs,
      List.map_congr_left fun c member => (accounts member).observed_eq]
  have planned : (ofRuns m runs).pendingRuns.length =
      ((cellsOf m runs).map (·.missingRuns)).sum := by
    show ((cellsOf m runs).flatMap Cell.pending).length = _
    simp only [List.length_flatMap, Cell.plans_pending _ |>.length_eq]
  have atMost := (sum_target_le fun c member => (accounts member).conserved).1
  rw [sum_target_cellsOf] at atMost
  omega

/-- The worklist of a loadable manifest accounts for every run, whatever runs there are: no planned
run is lost or made up. -/
theorem conserves_ofRuns (accepted : m.checkInvariants = .ok ()) :
    (ofRuns m runs).Conserves m runs := by
  have loadable := (Manifest.checkInvariants_eq_ok_iff m).mp accepted
  have distinct := nodup_places loadable runs
  have accounts : ∀ c ∈ cellsOf m runs, c.Accounts m.runsPerCell runs :=
    fun c member => accounts_cellsOf m runs member
  let blocks := (cellsOf m runs).map Cell.pending
  have pending : (ofRuns m runs).pendingRuns = blocks.flatten := List.flatMap_def
  have planned : List.Forall₂ Cell.Plans (cellsOf m runs) blocks := by
    rw [List.forall₂_map_right_iff]
    exact List.forall₂_same.mpr fun c _ => c.plans_pending
  have plannedCount := length_flatten_eq planned
  have observed : ((cellsOf m runs).map (·.observedRuns)).sum +
      runs.countP (isStray (cellsOf m runs)) = runs.length := by
    rw [← sum_observed_add_strays distinct runs,
      List.map_congr_left fun c member => (accounts c member).observed_eq]
  obtain ⟨atMost, exactly⟩ := sum_target_le fun c member => (accounts c member).conserved
  rw [sum_target_cellsOf] at atMost exactly
  have inCells : runs.countP (isStray (cellsOf m runs)) = 0 ↔
      ∀ r ∈ runs, ∃ c ∈ cellsOf m runs, r.isInCell c.taskId c.conditionId = true := by
    simp [isStray, List.countP_eq_zero]
  have balance : (m.neededRuns : Int) - runs.length ≤ (ofRuns m runs).pendingRuns.length := by
    rw [pending, plannedCount]
    omega
  refine ⟨rfl, rfl, map_ids_cellsOf m runs, distinct, accounts, ⟨blocks, pending, planned⟩, balance,
    ?_, fun empty => ?_⟩
  · show (m.neededRuns : Int) - runs.length = _ ↔ _
    rw [pending, plannedCount]
    constructor
    · intro equal
      exact ⟨inCells.mp (by omega), exactly.mp (by omega)⟩
    · rintro ⟨known, room⟩
      have noStray := inCells.mpr known
      have full := exactly.mpr room
      omega
  · show m.neededRuns ≤ runs.length
    rw [empty, List.length_nil] at balance
    omega

theorem conserves_pair : Manifest.pair.checkInvariants = .ok () ∧
    (ofRuns Manifest.pair [Run.ofPair "1" "plain" (some 3) [], Run.ofPair "2" "PLAIN" none [],
      Run.ofPair "3" "plain" (some (-1)) [], Run.ofPair "4" "other" (some 1) []]).Conserves
      Manifest.pair [Run.ofPair "1" "plain" (some 3) [], Run.ofPair "2" "PLAIN" none [],
        Run.ofPair "3" "plain" (some (-1)) [], Run.ofPair "4" "other" (some 1) []] :=
  ⟨by decide +kernel, conserves_ofRuns _ _ (by decide +kernel)⟩

end Worklist
end ToolTrial
