import ToolTrial.Proofs.Path
import ToolTrial.Settings.Basic
import ToolTrial.Store.Basic

/-!
What the default pattern of run files finds: the names on one line that end in `.json`.
-/

set_option autoImplicit false
set_option relaxedAutoImplicit false

namespace ToolTrial.Pattern

private def Fits (cs : List Char) (set : CharSet) (i : Nat) : Prop :=
  ∃ c, cs[i]? = some c ∧ set.contains c = true

private theorem mem_ends_one_iff (cs : List Char) (set : CharSet) (places : List Nat) (j : Nat) :
    j ∈ ends cs (.one set) places ↔ ∃ i ∈ places, Fits cs set i ∧ j = i + 1 := by
  simp only [ends, List.mem_filterMap, Fits]
  constructor
  · rintro ⟨i, member, next⟩
    cases here : cs[i]? with
    | none => simp [here] at next
    | some c =>
      by_cases inSet : set.contains c = true
      · simp only [here, inSet, if_true, Option.some.injEq] at next
        exact ⟨i, member, ⟨c, here, inSet⟩, next.symm⟩
      · simp [here, inSet] at next
  · rintro ⟨i, member, ⟨c, here, inSet⟩, rfl⟩
    exact ⟨i, member, by simp [here, inSet]⟩

private theorem mem_union_iff (a b : List Nat) (i : Nat) : i ∈ union a b ↔ i ∈ a ∨ i ∈ b := by
  simp only [union, List.mem_append, List.mem_filter, Bool.not_eq_true', List.contains_eq_mem,
    decide_eq_false_iff_not]
  by_cases member : i ∈ a <;> simp [member]

private theorem closed_of_noProgress {cs : List Char} {set : CharSet} {places : List Nat}
    (noProgress : (union places (ends cs (.one set) places)).length = places.length) :
    ∀ i ∈ places, Fits cs set i → i + 1 ∈ places := by
  intro i member fits
  refine Decidable.byContradiction fun missing => ?_
  have added : i + 1 ∈ (ends cs (.one set) places).filter fun i => !places.contains i := by
    refine List.mem_filter.mpr ⟨(mem_ends_one_iff _ _ _ _).mpr ⟨i, member, fits, rfl⟩, ?_⟩
    simpa using missing
  have positive := List.length_pos_of_mem added
  rw [union, List.length_append] at noProgress
  omega

private theorem mem_of_closed {cs : List Char} {set : CharSet} {places : List Nat}
    (closed : ∀ i ∈ places, Fits cs set i → i + 1 ∈ places) {i j : Nat} (member : i ∈ places)
    (atLeast : i ≤ j) (way : ∀ k, i ≤ k → k < j → Fits cs set k) : j ∈ places := by
  have reached (n : Nat) : i + n ≤ j → i + n ∈ places := by
    induction n with
    | zero => exact fun _ => member
    | succ n ih =>
      intro bound
      exact closed (i + n) (ih (by omega)) (way _ (by omega) (by omega))
  have there := reached (j - i) (by omega)
  rwa [show i + (j - i) = j by omega] at there

private theorem mem_roundsUpTo_iff (cs : List Char) (set : CharSet) (fuel : Nat)
    (places : List Nat) (j : Nat) :
    j ∈ roundsUpTo (ends cs (.one set)) fuel places ↔
      ∃ i ∈ places, i ≤ j ∧ j ≤ i + fuel ∧ ∀ k, i ≤ k → k < j → Fits cs set k := by
  -- the fuel is what the longest way takes; without progress the places are closed under steps
  induction fuel generalizing places with
  | zero =>
    simp only [roundsUpTo, Nat.add_zero]
    constructor
    · intro member
      exact ⟨j, member, Nat.le_refl j, Nat.le_refl j, fun k above below => by omega⟩
    · rintro ⟨i, member, atLeast, atMost, -⟩
      have equal : i = j := by omega
      exact equal ▸ member
  | succ fuel ih =>
    unfold roundsUpTo
    dsimp only
    split
    case isTrue noProgress =>
      constructor
      · intro member
        exact ⟨j, member, Nat.le_refl j, by omega, fun k above below => by omega⟩
      · rintro ⟨i, member, atLeast, -, way⟩
        exact mem_of_closed (closed_of_noProgress noProgress) member atLeast way
    case isFalse =>
      rw [ih]
      simp only [mem_union_iff, mem_ends_one_iff]
      constructor
      · rintro ⟨i, member | ⟨before, member, fits, rfl⟩, atLeast, atMost, way⟩
        · exact ⟨i, member, atLeast, by omega, way⟩
        · refine ⟨before, member, by omega, by omega, fun k above below => ?_⟩
          by_cases start : k = before
          · exact start ▸ fits
          · exact way k (by omega) below
      · rintro ⟨i, member, atLeast, atMost, way⟩
        by_cases here : i = j
        · exact ⟨i, Or.inl member, atLeast, by omega, way⟩
        · exact ⟨i + 1, Or.inr ⟨i, member, way i (Nat.le_refl i) (by omega), rfl⟩, by omega,
            by omega, fun k above below => way k (by omega) below⟩

private theorem mem_ends_star_iff (cs : List Char) (set : CharSet) (places : List Nat) (j : Nat) :
    j ∈ ends cs (.repeated 0 none (.one set)) places ↔
      ∃ i ∈ places, i ≤ j ∧ ∀ k, i ≤ k → k < j → Fits cs set k := by
  have unfolded : ends cs (.repeated 0 none (.one set)) places =
      roundsUpTo (ends cs (.one set)) (cs.length + 1) places := by
    simp [ends, rounds]
  rw [unfolded, mem_roundsUpTo_iff]
  constructor
  · rintro ⟨i, member, atLeast, -, way⟩
    exact ⟨i, member, atLeast, way⟩
  · rintro ⟨i, member, atLeast, way⟩
    refine ⟨i, member, atLeast, ?_, way⟩
    by_cases here : i = j
    · omega
    · obtain ⟨c, last, -⟩ := way (j - 1) (by omega) (by omega)
      have bound := (List.getElem?_eq_some_iff.mp last).1
      omega

section Ends

variable (cs : List Char) (places : List Nat)

private theorem ends_sequence (first second : Pattern) :
    ends cs (.sequence first second) places = ends cs second (ends cs first places) :=
  rfl

private theorem ends_empty : ends cs .empty places = places :=
  rfl

private theorem ends_textStart : ends cs .textStart places = places.filter (· == 0) :=
  rfl

private theorem ends_textEnd : ends cs .textEnd places = places.filter (· == cs.length) :=
  rfl

end Ends

/-- Names of documents: on one line, with `.json` at the end. -/
def documentNames : Pattern :=
  .sequence .textStart (.sequence (.repeated 0 none (.one (.complement (.only '\n'))))
    (.sequence (.one (.only '.')) (.sequence (.one (.only 'j')) (.sequence (.one (.only 's'))
      (.sequence (.one (.only 'o')) (.sequence (.one (.only 'n'))
        (.sequence .textEnd .empty)))))))

theorem defaults_pattern : Settings.defaults.pattern = .ok documentNames := by
  have read : Pattern.read? "^.*\\.json$" = some documentNames := by decide +kernel
  have pattern : Settings.readPattern Settings.defaults.runFilePattern = .ok documentNames := by
    rw [Settings.readPattern, Settings.defaults, read]
  rw [Settings.pattern, pattern]

private theorem contains_only_iff (c d : Char) : (CharSet.only c).contains d = true ↔ d = c := by
  simp only [CharSet.only, CharSet.contains, Bool.and_eq_true, decide_eq_true_eq]
  constructor
  · rintro ⟨above, below⟩
    exact Char.le_antisymm below above
  · rintro rfl
    exact ⟨Char.le_refl _, Char.le_refl _⟩

private theorem fits_only_iff (cs : List Char) (c : Char) (i : Nat) :
    Fits cs (.only c) i ↔ cs[i]? = some c := by
  simp [Fits, contains_only_iff]

private theorem drop_eq_iff {cs : List Char} {i : Nat} : cs.drop i = ".json".toList ↔
    cs[i]? = some '.' ∧ cs[i + 1]? = some 'j' ∧ cs[i + 2]? = some 's' ∧ cs[i + 3]? = some 'o' ∧
      cs[i + 4]? = some 'n' ∧ i + 5 = cs.length := by
  constructor
  · intro ending
    have character (k : Nat) : cs[i + k]? = ".json".toList[k]? := by
      rw [← ending, List.getElem?_drop]
    have size := congrArg List.length ending
    rw [List.length_drop] at size
    refine ⟨character 0, character 1, character 2, character 3, character 4, ?_⟩
    simp only [String.reduceToList, List.length_cons, List.length_nil] at size
    omega
  · rintro ⟨dot, j, s, o, n, size⟩
    apply List.ext_getElem?
    intro k
    rw [List.getElem?_drop]
    rcases k with _ | _ | _ | _ | _ | k
    · exact dot
    · exact j
    · exact s
    · exact o
    · exact n
    · rw [List.getElem?_eq_none (by omega)]
      rfl

private theorem isFoundIn_iff_drop (name : String) :
    documentNames.isFoundIn name = true ↔ ∃ i,
      (∀ k < i, ∃ c, name.toList[k]? = some c ∧ c ≠ '\n') ∧
        name.toList.drop i = ".json".toList := by
  let cs := name.toList
  have start (i : Nat) : i ∈ (List.range (cs.length + 1)).filter (· == 0) ↔ i = 0 := by
    simp only [List.mem_filter, List.mem_range, beq_iff_eq]
    omega
  have inLine (k : Nat) : Fits cs (.complement (.only '\n')) k ↔
      ∃ c, cs[k]? = some c ∧ c ≠ '\n' := by
    simp only [Fits, CharSet.contains, Bool.not_eq_true', ← Bool.not_eq_true, contains_only_iff]
  have someEnd : documentNames.isFoundIn name = true ↔
      ∃ j, j ∈ ends cs documentNames (List.range (cs.length + 1)) := by
    rw [isFoundIn, Bool.not_eq_true', List.isEmpty_eq_false_iff_exists_mem]
  rw [someEnd]
  simp only [documentNames, ends_sequence, ends_empty, ends_textEnd, ends_textStart,
    List.mem_filter, mem_ends_one_iff, mem_ends_star_iff, start, fits_only_iff, beq_iff_eq, inLine]
  constructor
  · rintro ⟨_, ⟨_, ⟨_, ⟨_, ⟨_, ⟨i, ⟨_, rfl, -, way⟩, dot, rfl⟩, j, rfl⟩, s, rfl⟩, o, rfl⟩, n, rfl⟩,
      size⟩
    exact ⟨i, fun k below => way k (Nat.zero_le k) below, drop_eq_iff.mpr ⟨dot, j, s, o, n, size⟩⟩
  · rintro ⟨i, way, ending⟩
    obtain ⟨dot, j, s, o, n, size⟩ := drop_eq_iff.mp ending
    exact ⟨_, ⟨_, ⟨_, ⟨_, ⟨_, ⟨i, ⟨0, rfl, Nat.zero_le i, fun k _ below => way k below⟩, dot, rfl⟩,
      j, rfl⟩, s, rfl⟩, o, rfl⟩, n, rfl⟩, size⟩

/-- The names that are found are those on one line that end in `.json`. -/
theorem isFoundIn_documentNames_iff (name : String) :
    documentNames.isFoundIn name = true ↔
      ∃ stem, name.toList = stem ++ ".json".toList ∧ '\n' ∉ stem := by
  rw [isFoundIn_iff_drop]
  constructor
  · rintro ⟨i, way, ending⟩
    refine ⟨name.toList.take i, ?_, fun member => ?_⟩
    · rw [← ending, List.take_append_drop]
    · obtain ⟨k, bound, here⟩ := List.getElem_of_mem member
      rw [List.length_take] at bound
      obtain ⟨c, there, other⟩ := way k (by omega)
      rw [List.getElem_take] at here
      have equal := (List.getElem?_eq_getElem (by omega : k < name.toList.length)).symm.trans there
      rw [here, Option.some.injEq] at equal
      exact other equal.symm
  · rintro ⟨stem, spelled, oneLine⟩
    refine ⟨stem.length, fun k below => ?_, ?_⟩
    · refine ⟨stem[k], ?_, fun newline => oneLine (newline ▸ List.getElem_mem below)⟩
      rw [spelled, List.getElem?_append_left below, List.getElem?_eq_getElem below]
    · rw [spelled, List.drop_left]

end ToolTrial.Pattern

namespace ToolTrial.Store

theorem fits_child (dir : Path) {name : String} (h : Path.IsName name) (pattern : Pattern) :
    fits pattern (dir.child name) = pattern.isFoundIn name := by
  rw [fits, Path.fileName?_child dir h]
  rfl

theorem fits_of_mem_sought {pattern : Pattern} {entries : List FoundEntry} {file : Path}
    (listed : file ∈ sought pattern entries) : fits pattern file = true := by
  obtain ⟨e, kept, rfl⟩ := List.mem_map.mp listed
  exact ((Bool.and_eq_true _ _).mp (List.mem_filter.mp kept).2).2

end ToolTrial.Store
