import ToolTrial.Proofs.Attempt
import ToolTrial.Proofs.Worklist

/-!
Completing a plan.  A worklist does not hang on the order of runs, and recording some of the planned
runs, whichever they are, takes exactly these out of the plan.
-/

set_option autoImplicit false
set_option relaxedAutoImplicit false

namespace ToolTrial

open Replicates (LeastFree)

/-- A run in the cell of a planned one, with its replicate number. -/
structure PendingRun.RecordedBy (p : PendingRun) (r : Run) : Prop where
  sameTask : Identifier.same r.taskId p.taskId = true
  sameCondition : Identifier.same r.conditionId p.conditionId = true
  replicate_eq : r.replicate = some p.replicate

def PendingRun.isInCell (p : PendingRun) (taskId conditionId : String) : Bool :=
  Identifier.same p.taskId taskId && Identifier.same p.conditionId conditionId

theorem PendingRun.RecordedBy.isInCell_eq {p : PendingRun} {r : Run} (h : p.RecordedBy r)
    (taskId conditionId : String) :
    r.isInCell taskId conditionId = p.isInCell taskId conditionId := by
  rw [Run.isInCell, PendingRun.isInCell, Identifier.same_congr_left h.sameTask,
    Identifier.same_congr_left h.sameCondition]

namespace Cell

theorem of_perm (target : Nat) {runs others : List Run} (perm : runs.Perm others)
    (taskId conditionId : String) :
    Cell.of target runs taskId conditionId = Cell.of target others taskId conditionId := by
  have observed := perm.filter fun r => r.isInCell taskId conditionId
  have used := Replicates.ofList_congr fun n =>
    ((observed.filterMap (·.replicate)).filter (0 < ·)).mem_iff (a := n)
  simp only [Cell.of, observed.length_eq, used]

section Step

variable {target : Nat} {runs new : List Run} {planned : List PendingRun}
  {taskId conditionId : String}

private theorem mem_used_of_iff (runs : List Run) (n : Int) :
    n ∈ (Cell.of target runs taskId conditionId).usedReplicates ↔
      0 < n ∧ ∃ r ∈ runs, r.isInCell taskId conditionId = true ∧ r.replicate = some n :=
  (accounts_of target runs taskId conditionId).mem_used_iff n

private theorem eq_of_mem_pending {p : PendingRun}
    (pending : p ∈ (Cell.of target runs taskId conditionId).pending) :
    p = PendingRun.of taskId conditionId p.replicate :=
  (Cell.of target runs taskId conditionId).plans_pending.carries p pending

private theorem isInCell_of (n : Int) :
    (PendingRun.of taskId conditionId n).isInCell taskId conditionId = true := by
  simp [PendingRun.isInCell, PendingRun.of, Identifier.same_refl]

/-- The recorded runs of a cell are among those that the cell plans. -/
private abbrev Own (target : Nat) (runs : List Run) (planned : List PendingRun)
    (taskId conditionId : String) : Prop :=
  ∀ p ∈ planned, p.isInCell taskId conditionId = true →
    p ∈ (Cell.of target runs taskId conditionId).pending

private theorem mem_used_append_iff (recorded : List.Forall₂ PendingRun.RecordedBy planned new)
    (own : Own target runs planned taskId conditionId) (n : Int) :
    n ∈ (Cell.of target (runs ++ new) taskId conditionId).usedReplicates ↔
      n ∈ (Cell.of target runs taskId conditionId).usedReplicates ∨
        n ∈ (Cell.of target runs taskId conditionId).pending.map (·.replicate) ∧
          PendingRun.of taskId conditionId n ∈ planned := by
  rw [mem_used_of_iff, mem_used_of_iff]
  constructor
  · rintro ⟨positive, r, member, inCell, number⟩
    rcases List.mem_append.mp member with old | recent
    · exact Or.inl ⟨positive, r, old, inCell, number⟩
    · obtain ⟨p, isPlanned, records⟩ := exists_mem_of_forall₂ recorded recent
      have pending := own p isPlanned (records.isInCell_eq _ _ ▸ inCell)
      have equal : p.replicate = n := Option.some.inj (records.replicate_eq.symm.trans number)
      refine Or.inr ⟨List.mem_map.mpr ⟨p, pending, equal⟩, ?_⟩
      rw [← equal, ← eq_of_mem_pending pending]
      exact isPlanned
  · rintro (⟨positive, r, old, inCell, number⟩ | ⟨pending, isPlanned⟩)
    · exact ⟨positive, r, List.mem_append_left _ old, inCell, number⟩
    · obtain ⟨r, recent, records⟩ := exists_mem_of_forall₂ recorded.flip isPlanned
      refine ⟨(plans_pending _).leastFree.positive n pending, r, List.mem_append_right _ recent, ?_,
        records.replicate_eq⟩
      rw [records.isInCell_eq, isInCell_of]

private theorem countP_new_eq (recorded : List.Forall₂ PendingRun.RecordedBy planned new)
    (distinct : planned.Nodup) (own : Own target runs planned taskId conditionId) :
    new.countP (fun r => r.isInCell taskId conditionId) =
      (Cell.of target runs taskId conditionId).pending.countP (· ∈ planned) := by
  have moved : new.countP (fun r => r.isInCell taskId conditionId) =
      planned.countP fun p => p.isInCell taskId conditionId := by
    clear own distinct
    induction recorded with
    | nil => rfl
    | cons here _ ih => rw [List.countP_cons, List.countP_cons, ih, here.isInCell_eq]
  let pending := (Cell.of target runs taskId conditionId).pending
  have distinctPending : pending.Nodup := (plans_pending _).leastFree.ascending.nodup.of_map _
  have perm : (planned.filter fun p => p.isInCell taskId conditionId).Perm
      (pending.filter (· ∈ planned)) := by
    refine (List.perm_ext_iff_of_nodup (distinct.filter _) (distinctPending.filter _)).mpr ?_
    intro p
    simp only [List.mem_filter, decide_eq_true_eq]
    constructor
    · rintro ⟨isPlanned, inCell⟩
      exact ⟨own p isPlanned inCell, isPlanned⟩
    · rintro ⟨member, isPlanned⟩
      refine ⟨isPlanned, ?_⟩
      rw [eq_of_mem_pending member, isInCell_of]
  rw [moved, List.countP_eq_length_filter, List.countP_eq_length_filter, perm.length_eq]

private theorem missingRuns_append (recorded : List.Forall₂ PendingRun.RecordedBy planned new)
    (distinct : planned.Nodup) (own : Own target runs planned taskId conditionId) :
    (Cell.of target (runs ++ new) taskId conditionId).missingRuns =
      (Cell.of target runs taskId conditionId).pending.length -
        (Cell.of target runs taskId conditionId).pending.countP (· ∈ planned) := by
  have planSize : (Cell.of target runs taskId conditionId).pending.length =
      target - runs.countP fun r => r.isInCell taskId conditionId := by
    rw [(plans_pending _).length_eq, List.countP_eq_length_filter]
    rfl
  have lacking : (Cell.of target (runs ++ new) taskId conditionId).missingRuns =
      target - (runs ++ new).countP fun r => r.isInCell taskId conditionId := by
    rw [List.countP_eq_length_filter]
    rfl
  rw [lacking, planSize, List.countP_append, countP_new_eq recorded distinct own]
  omega

private theorem map_of_pending : ((Cell.of target runs taskId conditionId).pending.map
    (·.replicate)).map (PendingRun.of taskId conditionId) =
      (Cell.of target runs taskId conditionId).pending := by
  rw [List.map_map]
  refine (List.map_congr_left fun p pending => ?_).trans (List.map_id _)
  exact (eq_of_mem_pending pending).symm

private theorem pending_of_append (recorded : List.Forall₂ PendingRun.RecordedBy planned new)
    (distinct : planned.Nodup) (own : Own target runs planned taskId conditionId) :
    (Cell.of target (runs ++ new) taskId conditionId).pending =
      (Cell.of target runs taskId conditionId).pending.filter (· ∉ planned) := by
  let cell := Cell.of target runs taskId conditionId
  let later := Cell.of target (runs ++ new) taskId conditionId
  let numbers := cell.pending.map (·.replicate)
  let taken (n : Int) : Bool := decide (PendingRun.of taskId conditionId n ∈ planned)
  have remaining : LeastFree later.usedReplicates (numbers.filter fun n => !taken n) := by
    refine cell.plans_pending.leastFree.filter_not taken fun n => ?_
    rw [decide_eq_true_iff]
    exact mem_used_append_iff recorded own n
  -- The numbers that remain are the least free ones; only their count is left to be settled.
  have count : (numbers.filter fun n => !taken n).length = later.missingRuns := by
    have inNumbers : numbers.countP taken = cell.pending.countP (· ∈ planned) := by
      rw [List.countP_map]
      refine List.countP_congr fun p pending => ?_
      rw [Function.comp_apply, decide_eq_true_iff, decide_eq_true_iff,
        ← eq_of_mem_pending pending]
    have parts := List.length_eq_length_filter_add (l := numbers) taken
    have lacking : later.missingRuns = numbers.length - numbers.countP taken := by
      rw [inNumbers, List.length_map]
      exact missingRuns_append recorded distinct own
    rw [← List.countP_eq_length_filter] at parts
    omega
  have found : Replicates.free later.usedReplicates later.missingRuns =
      numbers.filter fun n => !taken n := by
    apply (Replicates.leastFree_free _ _).eq_of_length_eq remaining
    rw [Replicates.length_free, count]
  have kept : (numbers.map (PendingRun.of taskId conditionId)).filter (· ∉ planned) =
      (numbers.filter fun n => !taken n).map (PendingRun.of taskId conditionId) := by
    rw [List.filter_map]
    congr 1
    refine List.filter_congr fun n _ => ?_
    simp [taken]
  rw [map_of_pending] at kept
  show (Replicates.free later.usedReplicates later.missingRuns).map
    (PendingRun.of taskId conditionId) = cell.pending.filter (· ∉ planned)
  rw [found, kept]

end Step
end Cell

namespace Worklist

variable {m : Manifest} {runs : List Run}

theorem pendingRuns_of_perm (m : Manifest) {runs others : List Run} (perm : runs.Perm others) :
    (ofRuns m runs).pendingRuns = (ofRuns m others).pendingRuns := by
  have cells : cellsOf m runs = cellsOf m others := by
    simp only [cellsOf, Cell.of_perm m.runsPerCell perm]
  show (cellsOf m runs).flatMap Cell.pending = (cellsOf m others).flatMap Cell.pending
  rw [cells]

private theorem place_of_mem_pending {c : Cell} {p : PendingRun} (pending : p ∈ c.pending) :
    c.place = (Identifier.key p.taskId, Identifier.key p.conditionId) := by
  rw [c.plans_pending.carries p pending]
  rfl

private theorem isInCell_iff_place (p : PendingRun) (c : Cell) :
    p.isInCell c.taskId c.conditionId = true ↔
      c.place = (Identifier.key p.taskId, Identifier.key p.conditionId) := by
  rw [PendingRun.isInCell, Bool.and_eq_true, Identifier.same_iff_key_eq,
    Identifier.same_iff_key_eq, Cell.place, Prod.mk.injEq, eq_comm,
    eq_comm (a := Identifier.key p.conditionId)]

theorem nodup_pendingRuns (loadable : m.Loadable) (runs : List Run) :
    (ofRuns m runs).pendingRuns.Nodup := by
  show ((cellsOf m runs).flatMap Cell.pending).Nodup
  have apart := List.pairwise_map.mp (nodup_places loadable runs)
  rw [List.nodup_flatMap]
  refine ⟨fun c _ => c.plans_pending.leastFree.ascending.nodup.of_map _, apart.imp ?_⟩
  intro c other different
  refine List.disjoint_left.mpr ?_
  intro p here there
  exact different ((place_of_mem_pending here).trans (place_of_mem_pending there).symm)

private theorem mem_pending_of_isInCell (loadable : m.Loadable) {p : PendingRun}
    (planned : p ∈ (ofRuns m runs).pendingRuns) {t : Task} (ht : t ∈ m.tasks) {c : Condition}
    (hc : c ∈ m.conditions) (inCell : p.isInCell t.id c.id = true) :
    p ∈ (Cell.of m.runsPerCell runs t.id c.id).pending := by
  obtain ⟨cell, isCell, pending⟩ := List.mem_flatMap.mp planned
  have this_cell : Cell.of m.runsPerCell runs t.id c.id ∈ cellsOf m runs :=
    List.mem_flatMap.mpr ⟨t, ht, List.mem_map.mpr ⟨c, hc, rfl⟩⟩
  have placed := (isInCell_iff_place p (Cell.of m.runsPerCell runs t.id c.id)).mp inCell
  have equal := List.inj_on_of_nodup_map (nodup_places loadable runs) this_cell isCell
    (placed.trans (place_of_mem_pending pending).symm)
  exact equal ▸ pending

/-- Recording some of the planned runs, wherever among the other runs, takes exactly these out of
the plan. -/
theorem pendingRuns_eq_filter (loadable : m.Loadable) {planned : List PendingRun}
    (distinct : planned.Nodup) (isPending : planned ⊆ (ofRuns m runs).pendingRuns)
    {new : List Run} (recorded : List.Forall₂ PendingRun.RecordedBy planned new)
    {enlarged : List Run} (inserted : enlarged.Perm (runs ++ new)) :
    (ofRuns m enlarged).pendingRuns =
      (ofRuns m runs).pendingRuns.filter (· ∉ planned) := by
  rw [pendingRuns_of_perm m inserted]
  show (cellsOf m (runs ++ new)).flatMap Cell.pending =
    ((cellsOf m runs).flatMap Cell.pending).filter (· ∉ planned)
  simp only [cellsOf, List.flatMap_assoc, List.flatMap_map, List.filter_flatMap]
  refine List.flatMap_congr fun t ht => List.flatMap_congr fun c hc => ?_
  exact Cell.pending_of_append recorded distinct fun p member inCell =>
    mem_pending_of_isInCell loadable (isPending member) ht hc inCell

/-- When some of the planned runs are recorded, in whatever order and wherever among the other runs,
exactly these are no longer planned, and the others stay as they are and in their order; when all
are recorded, nothing is left to do. -/
theorem pendingRuns_of_recorded (accepted : m.checkInvariants = .ok ())
    {planned : List PendingRun} (some_planned : planned.Subperm (ofRuns m runs).pendingRuns)
    {new : List Run} (recorded : List.Forall₂ PendingRun.RecordedBy planned new)
    {enlarged : List Run} (inserted : enlarged.Perm (runs ++ new)) :
    (ofRuns m enlarged).pendingRuns = (ofRuns m runs).pendingRuns.filter (· ∉ planned) ∧
      (ofRuns m enlarged).pendingRuns.length + planned.length =
        (ofRuns m runs).pendingRuns.length ∧
      ((∀ p ∈ (ofRuns m runs).pendingRuns, p ∈ planned) →
        (ofRuns m enlarged).pendingRuns = []) := by
  have loadable := (Manifest.checkInvariants_eq_ok_iff m).mp accepted
  have distinctPending := nodup_pendingRuns loadable runs
  have isPending := some_planned.subset
  obtain ⟨ordered, reordered, sublist⟩ := some_planned
  have distinct : planned.Nodup := reordered.nodup_iff.mp (distinctPending.sublist sublist)
  have remaining := pendingRuns_eq_filter loadable distinct isPending recorded inserted
  refine ⟨remaining, ?_, fun all => ?_⟩
  · have taken : ((ofRuns m runs).pendingRuns.filter (· ∈ planned)).Perm planned := by
      refine (List.perm_ext_iff_of_nodup (distinctPending.filter _) distinct).mpr fun p => ?_
      simp only [List.mem_filter, decide_eq_true_eq]
      exact ⟨fun both => both.2, fun member => ⟨isPending member, member⟩⟩
    have parts := List.length_eq_length_filter_add (l := (ofRuns m runs).pendingRuns)
      fun p => decide (p ∈ planned)
    rw [remaining, parts, taken.length_eq, Nat.add_comm]
    simp only [decide_not]
  · rw [remaining, List.filter_eq_nil_iff]
    intro p member
    simpa using all p member

/-- The later of two planned runs is recorded first. -/
theorem pendingRuns_pair : (ofRuns Manifest.pair [Run.ofPair "x" "PLAIN" (some 2) []]).pendingRuns =
    (ofRuns Manifest.pair []).pendingRuns.filter (· ∉ [PendingRun.of "fix" "plain" 2]) := by
  have isPlanned : [PendingRun.of "fix" "plain" 2].Subperm
      (ofRuns Manifest.pair []).pendingRuns :=
    List.singleton_subperm_iff.mpr (by decide +kernel)
  have recorded : List.Forall₂ PendingRun.RecordedBy [PendingRun.of "fix" "plain" 2]
      [Run.ofPair "x" "PLAIN" (some 2) []] :=
    .cons ⟨by decide +kernel, by decide +kernel, rfl⟩ .nil
  exact (pendingRuns_of_recorded (by decide +kernel) isPlanned recorded (List.Perm.refl _)).1

end Worklist
end ToolTrial
