import Mathlib.Data.List.Nodup
import ToolTrial.Identifier
import ToolTrial.Proofs.LetterCase

/-!
What identifiers are compared by.  Two spellings name the same thing exactly when they have one key,
so being the same is an equivalence; a list repeats no identifier exactly when its keys are pairwise
different, and then at most one member of the list answers to a name.  An identifier that is put
together from others with other characters between them names a file when each of them does.
-/

set_option autoImplicit false
set_option relaxedAutoImplicit false

namespace ToolTrial.Identifier

theorem same_iff_key_eq (a b : String) : same a b = true ↔ key a = key b :=
  Text.sameLetters_iff_lower_eq a b

theorem same_refl (a : String) : same a a = true :=
  (same_iff_key_eq a a).mpr rfl

theorem same_comm (a b : String) : same a b = same b a := by
  rw [Bool.eq_iff_iff, same_iff_key_eq, same_iff_key_eq, eq_comm]

theorem same_congr_left {a b : String} (h : same a b = true) (c : String) :
    same a c = same b c := by
  rw [Bool.eq_iff_iff, same_iff_key_eq, same_iff_key_eq, (same_iff_key_eq a b).mp h]

theorem same_congr_right {a b : String} (h : same a b = true) (c : String) :
    same c a = same c b := by
  rw [same_comm c a, same_comm c b, same_congr_left h]

theorem equivalence_same : Equivalence fun a b => same a b = true where
  refl := same_refl
  symm h := (same_comm _ _).trans h
  trans first second := (same_congr_left first _).trans second

theorem nodup_unseen_cons_iff {seen keys : List String} {k : String} :
    (k :: keys).Nodup ∧ (∀ k' ∈ k :: keys, k' ∉ seen) ↔
      k ∉ seen ∧ keys.Nodup ∧ ∀ k' ∈ keys, k' ∉ k :: seen := by
  rw [List.nodup_cons, List.forall_mem_cons]
  simp only [List.mem_cons, not_or]
  constructor
  · rintro ⟨⟨unique, distinct⟩, fresh, others⟩
    exact ⟨fresh, distinct, fun k' member =>
      ⟨fun equal => unique (equal ▸ member), others k' member⟩⟩
  · rintro ⟨fresh, distinct, others⟩
    exact ⟨⟨fun member => (others k member).1 rfl, distinct⟩, fresh, fun k' member =>
      (others k' member).2⟩

theorem repeated_eq_nil_iff (seen ids : List String) :
    repeated seen ids = [] ↔ (ids.map key).Nodup ∧ ∀ k ∈ ids.map key, k ∉ seen := by
  induction ids generalizing seen with
  | nil => simp [repeated]
  | cons id rest ih =>
    have head : (if seen.contains (key id) then [id] else []) = [] ↔ key id ∉ seen := by
      simp
    rw [repeated, List.append_eq_nil_iff, head, ih, List.map_cons, nodup_unseen_cons_iff]

section Named

variable {α : Type} (name : α → String)

theorem nodup_keys_iff_pairwise (things : List α) :
    (things.map fun a => key (name a)).Nodup ↔
      things.Pairwise fun a b => same (name a) (name b) = false := by
  rw [List.Nodup, List.pairwise_map]
  simp only [ne_eq, ← same_iff_key_eq, Bool.not_eq_true]

theorem countP_same_le_one {things : List α} (distinct : (things.map fun a => key (name a)).Nodup)
    (id : String) : things.countP (fun a => same (name a) id) ≤ 1 := by
  have counted : things.countP (fun a => same (name a) id) =
      (things.map fun a => key (name a)).count (key id) := by
    rw [List.count, List.countP_map]
    refine List.countP_congr fun a _ => ?_
    rw [same_iff_key_eq, Function.comp_apply, beq_iff_eq]
  rw [counted]
  exact List.nodup_iff_count_le_one.mp distinct _

theorem eq_of_same_of_nodup {things : List α} (distinct : (things.map fun a => key (name a)).Nodup)
    {a b : α} (ha : a ∈ things) (hb : b ∈ things) (h : same (name a) (name b) = true) : a = b :=
  List.inj_on_of_nodup_map distinct ha hb ((same_iff_key_eq _ _).mp h)

/-- Where no identifier is repeated, looking up a name finds the one member that has it. -/
theorem find?_same_eq_some_iff {things : List α}
    (distinct : (things.map fun a => key (name a)).Nodup) (id : String) (a : α) :
    (things.find? fun b => same (name b) id) = some a ↔ a ∈ things ∧ same (name a) id = true := by
  constructor
  · intro found
    exact ⟨List.mem_of_find?_eq_some found, by simpa using List.find?_some found⟩
  · rintro ⟨member, named⟩
    cases found : things.find? fun b => same (name b) id with
    | none => exact absurd named (List.find?_eq_none.mp found a member)
    | some b =>
      have hb : same (name b) id = true := by simpa using List.find?_some found
      have equal : same (name b) (name a) = true := by
        rw [same_congr_right named]
        exact hb
      rw [eq_of_same_of_nodup name distinct (List.mem_of_find?_eq_some found) member equal]

end Named

section Files

private theorem climbs_cons_cons (a b : Char) (rest : List Char) :
    climbs (a :: b :: rest) = (a == '.' && b == '.' || climbs (b :: rest)) := by
  by_cases first : a = '.'
  · by_cases second : b = '.'
    · subst first second
      rfl
    · rw [climbs]
      · simp [second]
      · rintro _ _ ⟨⟩
        exact second rfl
  · rw [climbs]
    · simp [first]
    · rintro _ rfl
      exact absurd rfl first

theorem climbs_eq_false {cs : List Char} (noStop : '.' ∉ cs) : climbs cs = false := by
  induction cs with
  | nil => rfl
  | cons a cs ih =>
    rw [List.mem_cons, not_or] at noStop
    cases cs with
    | nil => simp [climbs]
    | cons b cs => simp [climbs_cons_cons, Ne.symm noStop.1, ih noStop.2]

theorem climbs_append_cons {c : Char} (noStop : c ≠ '.') (as bs : List Char) :
    climbs (as ++ c :: bs) = (climbs as || climbs bs) := by
  induction as with
  | nil =>
    cases bs with
    | nil => simp [climbs]
    | cons b bs => simp [climbs_cons_cons, noStop, climbs]
  | cons a as ih =>
    cases as with
    | nil =>
      rw [List.nil_append] at ih
      rw [List.cons_append, List.nil_append, climbs_cons_cons, ih]
      simp [climbs, noStop]
    | cons b as =>
      rw [List.cons_append] at ih
      rw [List.cons_append, List.cons_append, climbs_cons_cons, climbs_cons_cons, ih, Bool.or_assoc]

theorem fileSafe_iff (id : String) : fileSafe id = true ↔
    '/' ∉ id.toList ∧ '\\' ∉ id.toList ∧ climbs id.toList = false := by
  rw [fileSafe, Bool.and_eq_true, Bool.not_eq_true', Bool.not_eq_true', List.any_eq_false,
    ← and_assoc]
  refine and_congr_left fun _ => ?_
  constructor
  · intro none
    exact ⟨fun member => by simpa using none _ member, fun member => by simpa using none _ member⟩
  · rintro ⟨noSlash, noBackslash⟩ c member
    have apart : c ≠ '/' ∧ c ≠ '\\' :=
      ⟨fun equal => noSlash (equal ▸ member), fun equal => noBackslash (equal ▸ member)⟩
    simp [apart]

end Files
end ToolTrial.Identifier
