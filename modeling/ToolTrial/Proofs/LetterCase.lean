import Mathlib.Data.List.Forall2
import ToolTrial.Text.Fold

/-!
Letter case in the bytes of a text.  A letter of ASCII is one byte of UTF-8, and no byte of any
other character is a letter; so the capitals of a text become small when those among its bytes do,
and two texts differ at most in letter case exactly when their bytes do, one by one.
-/

set_option autoImplicit false
set_option relaxedAutoImplicit false

namespace ToolTrial.Text

section Characters

theorem capital_iff (c : Char) :
    ('A'.val ≤ c.val ∧ c.val ≤ 'Z'.val) ↔ 65 ≤ c.toNat ∧ c.toNat ≤ 90 := by
  rw [UInt32.le_iff_toNat_le, UInt32.le_iff_toNat_le]
  exact Iff.rfl

theorem toNat_toLower_of_capital {c : Char} (capital : 'A'.val ≤ c.val ∧ c.val ≤ 'Z'.val) :
    (65 ≤ c.toNat ∧ c.toNat ≤ 90) ∧ c.toLower.toNat = c.toNat + 32 := by
  have range := (capital_iff c).mp capital
  refine ⟨range, ?_⟩
  have moved : c.toLower.val = c.val + 32 := congrArg Char.val (dif_pos capital)
  have value : (32 : UInt32).toNat = 32 := rfl
  show c.toLower.val.toNat = c.val.toNat + 32
  rw [moved, UInt32.toNat_add, value, Nat.mod_eq_of_lt]
  exact Nat.lt_of_le_of_lt (Nat.add_le_add_right range.2 32) (by decide)

theorem toLower_of_not_capital {c : Char} (noCapital : ¬ ('A'.val ≤ c.val ∧ c.val ≤ 'Z'.val)) :
    c.toLower = c :=
  dif_neg noCapital

end Characters

theorem toList_lower (s : String) : (lower s).toList = s.toList.map Char.toLower :=
  String.toList_ofList

def bytes (s : String) : List UInt8 :=
  s.toUTF8.data.toList

def lowerByte (b : UInt8) : UInt8 :=
  if 65 ≤ b.toNat ∧ b.toNat ≤ 90 then b + 32 else b

/-- Two bytes that differ at most in the case of an ASCII letter. -/
def SameByte (a b : UInt8) : Prop :=
  lowerByte a = lowerByte b

theorem bytes_ofList (cs : List Char) :
    bytes (String.ofList cs) = cs.flatMap String.utf8EncodeChar := by
  show (String.ofList cs).toByteArray.data.toList = _
  rw [String.toByteArray_ofList]
  exact List.toList_data_toByteArray

theorem bytes_inj {s t : String} : bytes s = bytes t ↔ s = t := by
  constructor
  · intro equal
    exact String.toByteArray_inj.mp (ByteArray.ext (Array.toList_inj.mp equal))
  · rintro rfl
    rfl

section Encoding

variable {c : Char}

private theorem utf8EncodeChar_of_ascii (low : c.toNat ≤ 127) :
    String.utf8EncodeChar c = [UInt8.ofNat c.toNat] :=
  if_pos low

private theorem le_of_mem_utf8EncodeChar (high : 127 < c.toNat) {b : UInt8}
    (member : b ∈ String.utf8EncodeChar c) : 128 ≤ b.toNat := by
  -- each byte is a few bits of the code point under a mark that is at least 128
  have marked (n k mark : Nat) (some : 0 < k) (fits : k + mark ≤ 256) (large : 128 ≤ mark) :
      128 ≤ (UInt8.ofNat (n % k + mark)).toNat := by
    have bits := Nat.mod_lt n some
    rw [UInt8.toNat_ofNat', Nat.mod_eq_of_lt (by omega)]
    omega
  have follows (n : Nat) := marked n 64 128 (by decide) (by decide) (by decide)
  have several : ¬ c.val.toNat ≤ 127 := Nat.not_le.mpr high
  unfold String.utf8EncodeChar at member
  simp only [if_neg several] at member
  split at member
  · simp only [List.mem_cons, List.not_mem_nil, or_false] at member
    rcases member with rfl | rfl
    · exact marked _ 32 192 (by decide) (by decide) (by decide)
    · exact follows _
  split at member
  · simp only [List.mem_cons, List.not_mem_nil, or_false] at member
    rcases member with rfl | rfl | rfl
    · exact marked _ 16 224 (by decide) (by decide) (by decide)
    · exact follows _
    · exact follows _
  · simp only [List.mem_cons, List.not_mem_nil, or_false] at member
    rcases member with rfl | rfl | rfl | rfl
    · exact marked _ 8 240 (by decide) (by decide) (by decide)
    · exact follows _
    · exact follows _
    · exact follows _

private theorem not_capital_of_mem_utf8EncodeChar
    (noCapital : ¬ ('A'.val ≤ c.val ∧ c.val ≤ 'Z'.val)) {b : UInt8}
    (member : b ∈ String.utf8EncodeChar c) : ¬ (65 ≤ b.toNat ∧ b.toNat ≤ 90) := by
  rw [capital_iff] at noCapital
  by_cases low : c.toNat ≤ 127
  · rw [utf8EncodeChar_of_ascii low] at member
    rw [List.mem_singleton.mp member, UInt8.toNat_ofNat', Nat.mod_eq_of_lt (by omega)]
    exact noCapital
  · have beyond := le_of_mem_utf8EncodeChar (Nat.not_le.mp low) member
    omega

theorem utf8EncodeChar_toLower (c : Char) :
    String.utf8EncodeChar c.toLower = (String.utf8EncodeChar c).map lowerByte := by
  by_cases capital : 'A'.val ≤ c.val ∧ c.val ≤ 'Z'.val
  · obtain ⟨range, lowered⟩ := toNat_toLower_of_capital capital
    have value : (UInt8.ofNat c.toNat).toNat = c.toNat := by
      rw [UInt8.toNat_ofNat', Nat.mod_eq_of_lt (by omega)]
    have moved : lowerByte (UInt8.ofNat c.toNat) = UInt8.ofNat c.toNat + 32 :=
      if_pos (value.symm ▸ range)
    rw [utf8EncodeChar_of_ascii (by omega), utf8EncodeChar_of_ascii (by omega), lowered,
      List.map_singleton, moved, UInt8.ofNat_add]
    rfl
  · have kept : ∀ b ∈ String.utf8EncodeChar c, lowerByte b = b := fun b member =>
      if_neg (not_capital_of_mem_utf8EncodeChar capital member)
    rw [toLower_of_not_capital capital, List.map_congr_left kept, List.map_id']

end Encoding

theorem bytes_lower (s : String) : bytes (lower s) = (bytes s).map lowerByte := by
  rw [lower, bytes_ofList, ← String.ofList_toList (s := s), bytes_ofList, String.toList_ofList,
    List.flatMap_map, List.map_flatMap]
  simp only [utf8EncodeChar_toLower]

private theorem sameLettersList_iff (as bs : List Char) :
    sameLettersList as bs = true ↔ as.map Char.toLower = bs.map Char.toLower := by
  induction as generalizing bs with
  | nil => cases bs <;> simp [sameLettersList]
  | cons a as ih => cases bs <;> simp [sameLettersList, ih]

theorem sameLetters_iff_lower_eq (s t : String) :
    sameLetters s t = true ↔ lower s = lower t := by
  rw [sameLetters, sameLettersList_iff, lower, lower, String.ofList_inj]

/-- Texts differ at most in letter case exactly when their bytes do, one by one. -/
theorem sameLetters_iff_bytes (s t : String) :
    sameLetters s t = true ↔ List.Forall₂ SameByte (bytes s) (bytes t) := by
  have pairwise : List.Forall₂ SameByte (bytes s) (bytes t) ↔
      (bytes s).map lowerByte = (bytes t).map lowerByte := by
    rw [← List.forall₂_eq_eq_eq, List.forall₂_map_left_iff, List.forall₂_map_right_iff]
    exact Iff.rfl
  rw [pairwise, ← bytes_lower, ← bytes_lower, bytes_inj, sameLetters_iff_lower_eq]

end ToolTrial.Text
