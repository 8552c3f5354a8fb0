import ToolTrial.Proofs.Replicates

/-!
The search for free replicate numbers.  It looks at the numbers from one on, takes each that is not
in use and marks it as used, until it has as many as are wanted.  Every number that it has passed is
in use or was taken, so it ends, within a bound, with the least free numbers; and a search that goes
on in the set that another one left finds what a single search would have found.
-/

set_option autoImplicit false
set_option relaxedAutoImplicit false

namespace ToolTrial.Replicates

/-- A search at work: the numbers in use by now, those that were taken, in order, and the number to
be looked at next. -/
structure Search where
  used : Replicates
  assigned : List Int
  candidate : Int

namespace Search

def start (used : Replicates) : Search := ⟨used, [], 1⟩

/-- One look: the candidate is taken unless it is in use, and the next number is the candidate. -/
def look (s : Search) : Search :=
  if s.used.contains s.candidate then ⟨s.used, s.assigned, s.candidate + 1⟩
  else ⟨insert s.candidate s.used, s.assigned ++ [s.candidate], s.candidate + 1⟩

/-- The search for so many numbers goes on from one state and ends in another. -/
inductive Ends (count : Nat) : Search → Search → Prop
  | full {s : Search} (enough : ¬ s.assigned.length < count) : Ends count s s
  | short {s t : Search} (wanting : s.assigned.length < count) (rest : Ends count s.look t) :
    Ends count s t

theorem Ends.unique {count : Nat} {s t t' : Search} (ends : Ends count s t)
    (ends' : Ends count s t') : t = t' := by
  induction ends with
  | full enough =>
    cases ends' with
    | full => rfl
    | short wanting => exact absurd wanting enough
  | short wanting _ ih =>
    cases ends' with
    | full enough => exact absurd wanting enough
    | short _ rest => exact ih rest

/-- What a search that began with a set knows: the numbers that it has passed are in that set or
were taken, and these alone have come into use. -/
structure Sound (used : Replicates) (s : Search) : Prop where
  isSet : s.used.Pairwise (· < ·)
  mem_used_iff : ∀ n, n ∈ s.used ↔ n ∈ used ∨ n ∈ s.assigned
  ascending : s.assigned.Pairwise (· < ·)
  mem_assigned_iff : ∀ n, n ∈ s.assigned ↔ (0 < n ∧ n < s.candidate) ∧ n ∉ used
  positive : 0 < s.candidate

variable {used : Replicates} {s : Search} {count : Nat}

theorem sound_start (isSet : used.Pairwise (· < ·)) : Sound used (start used) := by
  refine ⟨isSet, by simp [start], List.Pairwise.nil, ?_, Int.one_pos⟩
  intro n
  have none : ¬ (0 < n ∧ n < 1) := by omega
  simp [start, none]

theorem Sound.look (h : Sound used s) : Sound used s.look := by
  have positive := h.positive
  have fresh : s.candidate ∉ s.assigned := by
    rw [h.mem_assigned_iff]
    rintro ⟨⟨-, below⟩, -⟩
    exact below.false
  rw [Search.look]
  split
  case isTrue inUse =>
    have inSet : s.candidate ∈ used := by
      have member : s.candidate ∈ s.used := by simpa using inUse
      exact ((h.mem_used_iff _).mp member).resolve_right fresh
    refine ⟨h.isSet, h.mem_used_iff, h.ascending, ?_, by dsimp only; omega⟩
    intro n
    rw [h.mem_assigned_iff]
    constructor
    · rintro ⟨range, free⟩
      exact ⟨by dsimp only; omega, free⟩
    · rintro ⟨range, free⟩
      have apart : n ≠ s.candidate := by
        rintro rfl
        exact free inSet
      dsimp only at range
      exact ⟨by omega, free⟩
  case isFalse free =>
    have notInSet : s.candidate ∉ used := by
      intro member
      exact free (by simpa using (h.mem_used_iff _).mpr (Or.inl member))
    refine ⟨pairwise_insert _ _ h.isSet, ?_, ?_, ?_, by dsimp only; omega⟩
    · intro n
      rw [mem_insert_iff, h.mem_used_iff, List.mem_append, List.mem_singleton]
      tauto
    · refine List.pairwise_append.mpr ⟨h.ascending, List.pairwise_singleton _ _, ?_⟩
      intro n member k isCandidate
      rw [List.mem_singleton.mp isCandidate]
      exact ((h.mem_assigned_iff n).mp member).1.2
    · intro n
      rw [List.mem_append, List.mem_singleton, h.mem_assigned_iff]
      constructor
      · rintro (⟨range, outside⟩ | rfl)
        · exact ⟨by dsimp only; omega, outside⟩
        · exact ⟨by dsimp only; omega, notInSet⟩
      · rintro ⟨range, outside⟩
        dsimp only at range
        by_cases last : n = s.candidate
        · exact Or.inr last
        · exact Or.inl ⟨by omega, outside⟩

theorem Sound.candidate_le (h : Sound used s) :
    s.candidate ≤ used.length + s.assigned.length + 1 := by
  let passed : List Int := (List.range (s.candidate - 1).toNat).map fun (n : Nat) => (n : Int) + 1
  have distinct : passed.Nodup := by
    refine List.nodup_range.map fun n k equal => ?_
    omega
  have known : passed ⊆ used ++ s.assigned := by
    intro n member
    obtain ⟨k, inRange, rfl⟩ := List.mem_map.mp member
    rw [List.mem_range] at inRange
    rw [List.mem_append, h.mem_assigned_iff]
    by_cases inSet : (k : Int) + 1 ∈ used
    · exact Or.inl inSet
    · exact Or.inr ⟨by omega, inSet⟩
  have fits := (List.subperm_of_subset distinct known).length_le
  rw [List.length_append, List.length_map, List.length_range] at fits
  omega

theorem Sound.exists_ends (h : Sound used s) (notOver : s.assigned.length ≤ count) :
    ∃ t, Ends count s t ∧ Sound used t ∧ t.assigned.length = count := by
  have ends (left : Nat) (bound : used.length + count + 1 - s.candidate ≤ left) :
      ∃ t, Ends count s t ∧ Sound used t ∧ t.assigned.length = count := by
    -- by how far the candidate still is from the last number that it can reach
    induction left generalizing s with
    | zero =>
      have passed := h.candidate_le
      have enough : ¬ s.assigned.length < count := by omega
      exact ⟨s, .full enough, h, by omega⟩
    | succ left ih =>
      by_cases wanting : s.assigned.length < count
      · have further : s.look.candidate = s.candidate + 1 := by
          rw [Search.look]
          split <;> rfl
        have atMost : s.look.assigned.length ≤ count := by
          rw [Search.look]
          split
          · exact notOver
          · simpa using Nat.succ_le_of_lt wanting
        obtain ⟨t, rest, sound, full⟩ := ih h.look atMost (by omega)
        exact ⟨t, .short wanting rest, sound, full⟩
      · exact ⟨s, .full wanting, h, by omega⟩
  exact ends _ (Int.self_le_toNat _)

theorem Sound.leastFree (h : Sound used s) : LeastFree used s.assigned := by
  refine ⟨h.ascending, ?_, ?_, ?_⟩
  · intro n member
    exact ((h.mem_assigned_iff n).mp member).1.1
  · intro n member
    exact ((h.mem_assigned_iff n).mp member).2
  · intro n positive free absent k member
    have above : s.candidate ≤ n := by
      by_contra passed
      exact absent ((h.mem_assigned_iff n).mpr ⟨⟨positive, by omega⟩, free⟩)
    have below := ((h.mem_assigned_iff k).mp member).1.2
    omega

end Search

/-- The least free numbers of a set, followed by the least ones that are free when these are in use,
are least free numbers of the set. -/
theorem LeastFree.append {used larger chosen others : List Int} (h : LeastFree used chosen)
    (h' : LeastFree larger others) (members : ∀ n, n ∈ larger ↔ n ∈ used ∨ n ∈ chosen) :
    LeastFree used (chosen ++ others) := by
  have unused {n : Int} (member : n ∈ others) : n ∉ used ∧ n ∉ chosen := by
    have outside := h'.unused n member
    rwa [members, not_or] at outside
  refine ⟨?_, ?_, ?_, ?_⟩
  · refine List.pairwise_append.mpr ⟨h.ascending, h'.ascending, ?_⟩
    intro k early n late
    exact h.least n (h'.positive n late) (unused late).1 (unused late).2 k early
  · intro n member
    exact (List.mem_append.mp member).elim (h.positive n) (h'.positive n)
  · intro n member
    exact (List.mem_append.mp member).elim (h.unused n) fun late => (unused late).1
  · intro n positive free absent k member
    rw [List.mem_append, not_or] at absent
    have outside : n ∉ larger := by
      rw [members, not_or]
      exact ⟨free, absent.1⟩
    exact (List.mem_append.mp member).elim (h.least n positive free absent.1 k)
      (h'.least n positive outside absent.2 k)

section Take

variable {used : Replicates} {count : Nat}

/-- Taking numbers out of a set of used ones: what the search comes to, and which numbers it takes.
-/
structure Takes (used : Replicates) (count : Nat) (assigned : List Int) (after : Replicates) :
    Prop where
  ends : ∃ last : Int, last ≤ used.length + count + 1 ∧
    ∀ s, Search.Ends count (.start used) s ↔ s = ⟨after, assigned, last⟩
  length_eq : assigned.length = count
  leastFree : LeastFree used assigned
  isSet : after.Pairwise (· < ·)
  mem_after_iff : ∀ n, n ∈ after ↔ n ∈ used ∨ n ∈ assigned

theorem takes_take (isSet : used.Pairwise (· < ·)) (count : Nat) :
    Takes used count (used.take count).1 (used.take count).2 := by
  obtain ⟨t, ends, sound, full⟩ := (Search.sound_start isSet).exists_ends (Nat.zero_le count)
  have leastFree := leastFree_free used count
  have assigned : t.assigned = (used.take count).1 :=
    sound.leastFree.eq_of_length_eq leastFree (full.trans (length_free used count).symm)
  obtain ⟨ascending, members⟩ := foldl_insert_spec (used.take count).1 isSet
  have after : t.used = (used.take count).2 := by
    apply sound.isSet.eq_of_mem_iff ascending
    intro n
    rw [sound.mem_used_iff, assigned]
    exact (members n).symm
  have bound := sound.candidate_le
  refine ⟨⟨t.candidate, by omega, fun s => ⟨?_, ?_⟩⟩, length_free used count, leastFree,
    ascending, members⟩
  · intro other
    rw [← ends.unique other, ← assigned, ← after]
  · rintro rfl
    rwa [← assigned, ← after]

theorem take_add (isSet : used.Pairwise (· < ·)) (count more : Nat) :
    used.take (count + more) = ((used.take count).1 ++ ((used.take count).2.take more).1,
      ((used.take count).2.take more).2) := by
  have first := takes_take isSet count
  have second := takes_take first.isSet more
  have whole := takes_take isSet (count + more)
  have both := first.leastFree.append second.leastFree first.mem_after_iff
  have assigned : (used.take (count + more)).1 =
      (used.take count).1 ++ ((used.take count).2.take more).1 := by
    apply whole.leastFree.eq_of_length_eq both
    rw [whole.length_eq, List.length_append, first.length_eq, second.length_eq]
  have after : (used.take (count + more)).2 = ((used.take count).2.take more).2 := by
    apply whole.isSet.eq_of_mem_iff second.isSet
    intro n
    rw [whole.mem_after_iff, second.mem_after_iff, first.mem_after_iff, assigned, List.mem_append,
      or_assoc]
  exact Prod.ext assigned after

/-- Numbers are taken by a search that ends within a bound: they are the least free ones, the set
grows by just these, and it does not matter in how many goes they are taken. -/
theorem takes_and_take_add (isSet : used.Pairwise (· < ·)) (count : Nat) :
    Takes used count (used.take count).1 (used.take count).2 ∧
      ∀ more, used.take (count + more) = ((used.take count).1 ++ ((used.take count).2.take more).1,
        ((used.take count).2.take more).2) :=
  ⟨takes_take isSet count, take_add isSet count⟩

/-- Zero and a negative number are in the way of none. -/
theorem takes_and_take_add_sparse :
    ([-3, 0, 1, 2, 4] : Replicates).Pairwise (· < ·) ∧
      Takes [-3, 0, 1, 2, 4] 3 [3, 5, 6] [-3, 0, 1, 2, 3, 4, 5, 6] ∧
      Replicates.take [-3, 0, 1, 2, 4] (3 + 1) = ([3, 5, 6, 7], [-3, 0, 1, 2, 3, 4, 5, 6, 7]) := by
  have isSet : ([-3, 0, 1, 2, 4] : Replicates).Pairwise (· < ·) := by decide
  obtain ⟨takes, more⟩ := takes_and_take_add isSet 3
  exact ⟨isSet, takes, more 1⟩

end Take
end ToolTrial.Replicates
