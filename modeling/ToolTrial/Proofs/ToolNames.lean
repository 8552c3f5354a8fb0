import Mathlib.Data.List.TakeWhile
import ToolTrial.Proofs.Spelling

/-!
Names of tools as they are compared.  What is trimmed away from a text does not depend on letter
case, nor does it matter how many blanks surround it; nothing is left exactly of a text that is
blank throughout.  So a name is a treatment tool's exactly when it begins with an entry that says
something, letter case and surrounding blanks aside.
-/

set_option autoImplicit false
set_option relaxedAutoImplicit false

namespace ToolTrial

namespace Text

theorem toList_trim (s : String) :
    (trim s).toList = dropBlanksRight (s.toList.dropWhile isBlank) :=
  String.toList_ofList

private theorem dropWhile_map_toLower (cs : List Char) :
    (cs.map Char.toLower).dropWhile isBlank = (cs.dropWhile isBlank).map Char.toLower := by
  rw [List.dropWhile_map]
  congr 2
  funext c
  exact isBlank_toLower c

private theorem dropBlanksRight_map_toLower (cs : List Char) :
    dropBlanksRight (cs.map Char.toLower) = (dropBlanksRight cs).map Char.toLower := by
  rw [dropBlanksRight, ← List.map_reverse, dropWhile_map_toLower, ← List.map_reverse]
  rfl

theorem trim_lower (s : String) : trim (lower s) = lower (trim s) := by
  apply String.toList_inj.mp
  rw [toList_trim, toList_lower, toList_lower, toList_trim, dropWhile_map_toLower,
    dropBlanksRight_map_toLower]

private theorem dropBlanksRight_append {blanks : List Char}
    (blank : ∀ c ∈ blanks, isBlank c = true) (cs : List Char) :
    dropBlanksRight (cs ++ blanks) = dropBlanksRight cs := by
  have around : ∀ c ∈ blanks.reverse, isBlank c = true := by
    intro c member
    exact blank c (List.mem_reverse.mp member)
  rw [dropBlanksRight, List.reverse_append, List.dropWhile_append_of_pos around]
  rfl

private theorem dropBlanksRight_eq_nil_iff (cs : List Char) :
    dropBlanksRight cs = [] ↔ ∀ c ∈ cs, isBlank c = true := by
  rw [dropBlanksRight, List.reverse_eq_nil_iff, List.dropWhile_eq_nil_iff]
  simp only [List.mem_reverse]

private theorem dropWhile_dropWhile_eq_nil_iff (cs : List Char) :
    (∀ c ∈ cs.dropWhile isBlank, isBlank c = true) ↔ ∀ c ∈ cs, isBlank c = true := by
  constructor
  · intro rest c member
    rw [← List.takeWhile_append_dropWhile (p := isBlank) (l := cs), List.mem_append] at member
    cases member with
    | inl front => exact List.mem_takeWhile_imp front
    | inr back => exact rest c back
  · intro all c member
    exact all c ((List.dropWhile_sublist isBlank).subset member)

theorem trim_eq_empty_iff (s : String) : trim s = "" ↔ allBlank s = true := by
  rw [← String.toList_eq_nil_iff, toList_trim, dropBlanksRight_eq_nil_iff,
    dropWhile_dropWhile_eq_nil_iff, allBlank, List.all_eq_true]

theorem trim_surround {front back : String} (blankFront : allBlank front = true)
    (blankBack : allBlank back = true) (s : String) : trim (front ++ s ++ back) = trim s := by
  have before : ∀ c ∈ front.toList, isBlank c = true := List.all_eq_true.mp blankFront
  have after : ∀ c ∈ back.toList, isBlank c = true := List.all_eq_true.mp blankBack
  apply String.toList_inj.mp
  rw [toList_trim, toList_trim, String.toList_append, String.toList_append, List.append_assoc,
    List.dropWhile_append_of_pos before, List.dropWhile_append]
  split
  case isTrue nothing =>
    rw [List.isEmpty_iff.mp nothing, List.dropWhile_eq_nil_iff.mpr after]
  case isFalse => exact dropBlanksRight_append after _

private theorem dropBlanksRight_prefix_append (cs more : List Char) :
    dropBlanksRight cs <+: dropBlanksRight (cs ++ more) := by
  have front : dropBlanksRight cs <+: cs := by
    rw [← List.reverse_suffix, dropBlanksRight, List.reverse_reverse]
    exact List.dropWhile_suffix isBlank
  have whole : dropBlanksRight (cs ++ more) =
      ((more.reverse ++ cs.reverse).dropWhile isBlank).reverse := by
    rw [dropBlanksRight, List.reverse_append]
  rw [whole, List.dropWhile_append]
  split
  case isTrue => exact List.prefix_refl _
  case isFalse =>
    rw [List.reverse_append, List.reverse_reverse]
    exact front.trans (List.prefix_append _ _)

/-- What is trimmed to something stays in front when the text goes on. -/
theorem trim_prefix_trim_append {s : String} (given : allBlank s = false) (more : String) :
    (trim s).toList <+: (trim (s ++ more)).toList := by
  rw [toList_trim, toList_trim, String.toList_append, List.dropWhile_append]
  split
  case isTrue nothing =>
    have blank := List.all_eq_true.mpr (List.dropWhile_eq_nil_iff.mp (List.isEmpty_iff.mp nothing))
    rw [allBlank, blank] at given
    cases given
  case isFalse => exact dropBlanksRight_prefix_append _ _

theorem startsWith_refl (s : String) : startsWith s s = true :=
  List.isPrefixOf_iff_prefix.mpr (List.prefix_refl _)

theorem startsWith_trans {s t u : String} (first : startsWith s t = true)
    (second : startsWith t u = true) : startsWith s u = true := by
  rw [startsWith, List.isPrefixOf_iff_prefix] at first second ⊢
  exact second.trans first

end Text

namespace Tooling

theorem normal_isEmpty (s : String) : (normal s).isEmpty = Text.allBlank s := by
  have small : normal s = "" ↔ Text.trim s = "" := by
    rw [← String.toList_eq_nil_iff, ← String.toList_eq_nil_iff, normal, Text.toList_lower,
      List.map_eq_nil_iff]
  rw [Bool.eq_iff_iff, String.isEmpty_iff, small, Text.trim_eq_empty_iff]

theorem normal_eq_of_sameLetters {s t : String} (h : Text.sameLetters s t = true) :
    normal s = normal t := by
  rw [normal, normal, ← Text.trim_lower, ← Text.trim_lower,
    (Text.sameLetters_iff_lower_eq s t).mp h]

theorem startsWith_normal_append {s : String} (given : Text.allBlank s = false) (more : String) :
    Text.startsWith (normal (s ++ more)) (normal s) = true := by
  apply List.isPrefixOf_iff_prefix.mpr
  rw [normal, normal, Text.toList_lower, Text.toList_lower]
  exact (Text.trim_prefix_trim_append given more).map _

theorem isTreatmentTool_iff (starts : List String) (name : String) :
    (ofList starts).isTreatmentTool name = true ↔
      ∃ s ∈ starts, Text.allBlank s = false ∧ Text.startsWith (normal name) (normal s) = true := by
  rw [isTreatmentTool, ofList, List.any_eq_true]
  constructor
  · rintro ⟨start, listed, begins⟩
    rw [List.mem_filter] at listed
    obtain ⟨s, member, rfl⟩ := List.mem_map.mp listed.1
    refine ⟨s, member, ?_, begins⟩
    simpa [normal_isEmpty] using listed.2
  · rintro ⟨s, member, given, begins⟩
    refine ⟨normal s, ?_, begins⟩
    rw [List.mem_filter, normal_isEmpty, given]
    exact ⟨List.mem_map_of_mem member, rfl⟩

end Tooling
end ToolTrial
