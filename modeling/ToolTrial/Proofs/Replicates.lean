import Mathlib.Data.List.Sort
import ToolTrial.Worklist

/-!
Sets of replicate numbers and the least numbers outside them.  Being the least free numbers of a
set says which numbers they are, up to how many; taking some of them out and into the set leaves the
least free numbers of the larger set.
-/

set_option autoImplicit false
set_option relaxedAutoImplicit false

namespace ToolTrial.Replicates

theorem mem_insert_iff (n k : Int) (used : Replicates) :
    k ∈ insert n used ↔ k = n ∨ k ∈ used := by
  induction used with
  | nil => simp [insert]
  | cons head rest ih =>
    unfold insert
    split
    case isTrue equal => simp [equal]
    case isFalse =>
      split
      case isTrue => simp
      case isFalse =>
        simp only [List.mem_cons, ih]
        exact or_left_comm

theorem pairwise_insert (n : Int) (used : Replicates) (ascending : used.Pairwise (· < ·)) :
    (insert n used).Pairwise (· < ·) := by
  induction used with
  | nil => simp [insert]
  | cons head rest ih =>
    obtain ⟨below, ascendingRest⟩ := List.pairwise_cons.mp ascending
    unfold insert
    split
    case isTrue => exact ascending
    case isFalse different =>
      split
      case isTrue less =>
        refine List.pairwise_cons.mpr ⟨fun k member => ?_, ascending⟩
        rcases List.mem_cons.mp member with rfl | member
        · exact less
        · exact less.trans (below k member)
      case isFalse notLess =>
        refine List.pairwise_cons.mpr ⟨fun k member => ?_, ih ascendingRest⟩
        rcases (mem_insert_iff n k rest).mp member with rfl | member
        · omega
        · exact below k member

theorem foldl_insert_spec (numbers : List Int) {used : Replicates}
    (ascending : used.Pairwise (· < ·)) :
    (numbers.foldl (fun used n => insert n used) used).Pairwise (· < ·) ∧
      ∀ n, n ∈ numbers.foldl (fun used n => insert n used) used ↔ n ∈ used ∨ n ∈ numbers := by
  induction numbers generalizing used with
  | nil => simpa using ascending
  | cons k rest ih =>
    obtain ⟨ordered, members⟩ := ih (pairwise_insert k used ascending)
    refine ⟨ordered, fun n => ?_⟩
    rw [List.foldl_cons, members n, mem_insert_iff, List.mem_cons, or_comm (a := n = k),
      or_assoc]

theorem ofList_spec (numbers : List Int) :
    (ofList numbers).Pairwise (· < ·) ∧ ∀ n, n ∈ ofList numbers ↔ n ∈ numbers := by
  have start : ([] : List Int).Pairwise (· < ·) := List.Pairwise.nil
  obtain ⟨ascending, members⟩ := foldl_insert_spec numbers start
  exact ⟨ascending, fun n => (members n).trans (by simp)⟩

theorem ofList_congr {numbers others : List Int} (same : ∀ n, n ∈ numbers ↔ n ∈ others) :
    ofList numbers = ofList others := by
  obtain ⟨ascending, members⟩ := ofList_spec numbers
  obtain ⟨ascending', members'⟩ := ofList_spec others
  apply ascending.eq_of_mem_iff ascending'
  intro n
  rw [members, members', same]

/-- Positive numbers outside a set, ascending, such that no such number below any of them is left
out. -/
structure LeastFree (used chosen : List Int) : Prop where
  ascending : chosen.Pairwise (· < ·)
  positive : ∀ n ∈ chosen, 0 < n
  unused : ∀ n ∈ chosen, n ∉ used
  least : ∀ n, 0 < n → n ∉ used → n ∉ chosen → ∀ k ∈ chosen, k < n

namespace LeastFree

variable {used chosen others : List Int}

private theorem subset_of_not_subset (h : LeastFree used chosen) (h' : LeastFree used others)
    (extra : ¬ chosen ⊆ others) : others ⊆ chosen := by
  simp only [List.subset_def, not_forall] at extra
  obtain ⟨n, member, absent⟩ := extra
  intro k chosenElsewhere
  by_contra missing
  have below := h.least k (h'.positive k chosenElsewhere) (h'.unused k chosenElsewhere) missing
    n member
  have above := h'.least n (h.positive n member) (h.unused n member) absent k chosenElsewhere
  omega

theorem eq_of_length_eq (h : LeastFree used chosen) (h' : LeastFree used others)
    (equal : chosen.length = others.length) : chosen = others := by
  have inside : chosen ⊆ others ∨ others ⊆ chosen := by
    by_cases subset : chosen ⊆ others
    · exact Or.inl subset
    · exact Or.inr (h.subset_of_not_subset h' subset)
  have perm : chosen.Perm others := by
    rcases inside with subset | subset
    · exact (List.subperm_of_subset h.ascending.nodup subset).perm_of_length_le equal.ge
    · exact ((List.subperm_of_subset h'.ascending.nodup subset).perm_of_length_le equal.le).symm
  exact h.ascending.eq_of_mem_iff h'.ascending fun _ => perm.mem_iff

/-- When some of the least free numbers of a set are put into it, the others are the least free
numbers of the larger set. -/
theorem filter_not (h : LeastFree used chosen) (taken : Int → Bool) {larger : List Int}
    (members : ∀ n, n ∈ larger ↔ n ∈ used ∨ n ∈ chosen ∧ taken n = true) :
    LeastFree larger (chosen.filter fun n => !taken n) := by
  refine ⟨h.ascending.filter _, fun n member => ?_, fun n member => ?_, ?_⟩
  · exact h.positive n (List.mem_of_mem_filter member)
  · obtain ⟨isChosen, free⟩ := List.mem_filter.mp member
    rw [members, not_or]
    refine ⟨h.unused n isChosen, fun used => ?_⟩
    simp [used.2] at free
  · intro n positive unused absent k member
    rw [members, not_or] at unused
    have notChosen : n ∉ chosen := by
      intro isChosen
      cases isTaken : taken n with
      | true => exact unused.2 ⟨isChosen, isTaken⟩
      | false => exact absent (List.mem_filter.mpr ⟨isChosen, by simp [isTaken]⟩)
    exact h.least n positive unused.1 notChosen k (List.mem_of_mem_filter member)

end LeastFree

private def candidates (used : Replicates) (count : Nat) : List Int :=
  (List.range (used.length + count)).map fun (n : Nat) => (n : Int) + 1

private theorem mem_candidates_iff (used : Replicates) (count : Nat) (n : Int) :
    n ∈ candidates used count ↔ 0 < n ∧ n ≤ used.length + count := by
  simp only [candidates, List.mem_map, List.mem_range]
  constructor
  · rintro ⟨k, below, rfl⟩
    omega
  · rintro ⟨positive, bound⟩
    exact ⟨(n - 1).toNat, by omega, by omega⟩

private theorem pairwise_candidates (used : Replicates) (count : Nat) :
    (candidates used count).Pairwise (· < ·) := by
  rw [candidates, List.pairwise_map]
  exact List.pairwise_lt_range.imp fun less => by omega

private theorem le_length_free_candidates (used : Replicates) (count : Nat) :
    count ≤ ((candidates used count).filter fun n => !used.contains n).length := by
  have inUse : ((candidates used count).filter fun n => used.contains n) ⊆ used := by
    intro n member
    simpa using (List.mem_filter.mp member).2
  have distinct := (pairwise_candidates used count).nodup.filter fun n => used.contains n
  have few := (List.subperm_of_subset distinct inUse).length_le
  have all : (candidates used count).length = used.length + count := by
    simp [candidates]
  have parts := List.length_eq_length_filter_add (l := candidates used count)
    fun n => used.contains n
  omega

theorem length_free (used : Replicates) (count : Nat) : (free used count).length = count := by
  have enough := le_length_free_candidates used count
  show (((candidates used count).filter fun n => !used.contains n).take count).length = count
  rw [List.length_take]
  omega

theorem leastFree_free (used : Replicates) (count : Nat) : LeastFree used (free used count) := by
  let unused := (candidates used count).filter fun n => !used.contains n
  have ascending : unused.Pairwise (· < ·) := (pairwise_candidates used count).filter _
  have chosen : free used count = unused.take count := rfl
  have isUnused (n : Int) (member : n ∈ unused.take count) : n ∈ unused :=
    List.mem_of_mem_take member
  rw [chosen]
  refine ⟨ascending.sublist (List.take_sublist _ _), fun n member => ?_, fun n member => ?_, ?_⟩
  · have candidate := (List.mem_filter.mp (isUnused n member)).1
    exact ((mem_candidates_iff used count n).mp candidate).1
  · simpa using (List.mem_filter.mp (isUnused n member)).2
  · intro n positive fresh absent k member
    by_contra notBelow
    have bound := ((mem_candidates_iff used count k).mp
      (List.mem_filter.mp (isUnused k member)).1).2
    have candidate : n ∈ unused := by
      refine List.mem_filter.mpr ⟨(mem_candidates_iff used count n).mpr ⟨positive, by omega⟩, ?_⟩
      simpa using fresh
    rw [← List.take_append_drop count unused, List.mem_append] at candidate
    rw [← List.take_append_drop count unused, List.pairwise_append] at ascending
    have above := ascending.2.2 k member n (candidate.resolve_left absent)
    omega

/-- No number that `free` finds is greater than the numbers in use and those asked for together. -/
theorem le_of_mem_free {used : Replicates} {count : Nat} {n : Int} (member : n ∈ free used count) :
    n ≤ used.length + count := by
  have candidate := (List.mem_filter.mp (List.mem_of_mem_take member)).1
  exact ((mem_candidates_iff used count n).mp candidate).2

end ToolTrial.Replicates
