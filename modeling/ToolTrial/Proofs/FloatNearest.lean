import Mathlib
import ToolTrial.Proofs.FloatArithmetic

/-!
The float nearest to a quotient of natural numbers stands for the rounded quotient: quotients that
are rounded from text or from counts are rounded as the results of machine arithmetic are.
-/

set_option autoImplicit false
set_option relaxedAutoImplicit false

namespace ToolTrial.Number

open Float.Model (Format)
open Float.Model.UnpackedFloat

section Bits

variable {v : ℚ} {mantissa : Nat} {exponent : Int} {x : Float}

/-- The bits that a rounded mantissa and its exponent make up. -/
def bitsOf (mantissa : Nat) (exponent : Int) : Nat :=
  (exponent - leastExponent).toNat * Nat.pow 2 52 + mantissa

private theorem bitsOf_eq (mantissa : Nat) (exponent : Int) :
    bitsOf mantissa exponent = (exponent + 1074).toNat * 4503599627370496 + mantissa := by
  show (exponent - -1074).toNat * 4503599627370496 + mantissa = _
  rw [sub_neg_eq_add]

theorem Rounded.value_ofBits (h : Rounded v mantissa exponent)
    (finite : bitsOf mantissa exponent < infinityBits) :
    (Magnitude.ofBits (bitsOf mantissa exponent)).value = mantissa * 2 ^ exponent := by
  have least : -1074 ≤ exponent := h.least
  have full : -1074 < exponent → 4503599627370496 ≤ mantissa := h.le_mantissa
  have most : mantissa ≤ 9007199254740992 := h.mantissa_le
  rw [bitsOf_eq] at finite ⊢
  change _ < 9218868437227405312 at finite
  generalize bits : (exponent + 1074).toNat * 4503599627370496 + mantissa = n at *
  rw [ofBits_eq, Magnitude.value]
  by_cases short : mantissa < 4503599627370496
  · have field : n / 4503599627370496 % 2048 = 0 := by omega
    have fraction : n % 4503599627370496 = mantissa := by omega
    have lowest : exponent = -1074 := by omega
    rw [if_pos field, fraction, lowest]
  by_cases carry : mantissa = 9007199254740992
  · have field : (n / 4503599627370496 % 2048 : Nat) = exponent + 1076 := by omega
    have fraction : n % 4503599627370496 = 0 := by omega
    rw [if_neg (by omega), fraction, field, carry]
    show ((4503599627370496 : Nat) : ℚ) * 2 ^ (exponent + 1076 - 1075) = _
    rw [show exponent + 1076 - 1075 = exponent + 1 by ring, zpow_two_add]
    push_cast
    ring
  · have field : (n / 4503599627370496 % 2048 : Nat) = exponent + 1075 := by omega
    have fraction : 4503599627370496 + n % 4503599627370496 = mantissa := by omega
    rw [if_neg (by omega), fraction, field, add_sub_cancel_right]

theorem Rounded.bitsOf_lt (h : Rounded v mantissa exponent)
    (small : (mantissa : ℚ) * 2 ^ exponent < 2 ^ (1024 : Int)) :
    bitsOf mantissa exponent < infinityBits := by
  have full : -1074 < exponent → 4503599627370496 ≤ mantissa := h.le_mantissa
  have most : mantissa ≤ 9007199254740992 := h.mantissa_le
  rw [bitsOf_eq]
  show _ < 9218868437227405312
  by_contra large
  rcases le_or_gt exponent 971 with low | high
  · have top : exponent = 971 ∧ mantissa = 9007199254740992 := by omega
    have edge : ((9007199254740992 : Nat) : ℚ) * 2 ^ (971 : Int) = 2 ^ (1024 : Int) :=
      (zpow_two_places 971 53).symm
    rw [top.1, top.2, edge] at small
    exact lt_irrefl _ small
  · have overflow : (2 : ℚ) ^ (1024 : Int) ≤ mantissa * 2 ^ exponent :=
      (zpow_two_le (by omega)).trans (pow_le_mul (full (by omega)) exponent)
    exact absurd small (not_lt_of_ge overflow)

theorem stands_of_toBits (finite : x.toBits.toNat < infinityBits) :
    Stands x (Magnitude.ofBits x.toBits.toNat).value := by
  change x.toBits.toNat < 9218868437227405312 at finite
  have unsigned : x.toBits.toNat % Nat.pow 2 63 = x.toBits.toNat := by
    show x.toBits.toNat % 9223372036854775808 = _
    omega
  have carries := carries_unpack x.toBits.toBitVec (by
    rw [UInt64.toNat_toBitVec, unsigned]
    exact finite)
  have positive : @unpackSign Format.binary64 x.toBits.toBitVec = 0#1 := by
    apply BitVec.eq_of_toNat_eq
    show x.toBits.toNat >>> 63 % 2 = 0
    rw [Nat.shiftRight_eq_div_pow]
    omega
  rw [UInt64.toNat_toBitVec, unsigned, positive] at carries
  exact ⟨⟨.positive, carries, by rintro ⟨⟩⟩, carries.small⟩

end Bits

section Quotients

variable {num den : Nat}

theorem roundDiv_near (num : Nat) (positive : 0 < den) :
    (num / den : ℚ) - 1 / 2 ≤ roundDiv .toEven num den ∧
      roundDiv .toEven num den ≤ (num / den : ℚ) + 1 / 2 := by
  have divisor : (0 : ℚ) < den := by exact_mod_cast positive
  have remainder := Nat.mod_lt num positive
  rw [roundDiv, quotient_eq_add num positive]
  generalize num / den = q at *
  generalize num % den = r at *
  have rest : (0 : ℚ) ≤ r / den := div_nonneg (Nat.cast_nonneg r) divisor.le
  have proper : (r : ℚ) / den ≤ 1 := (div_le_one divisor).mpr (by exact_mod_cast remainder.le)
  have least (low : 2 * r ≤ den) : (r : ℚ) / den ≤ 1 / 2 := by
    rw [div_le_iff₀ divisor]
    linarith [show (2 * r : ℚ) ≤ den by exact_mod_cast low]
  have most (high : den ≤ 2 * r) : 1 / 2 ≤ (r : ℚ) / den := by
    rw [le_div_iff₀ divisor]
    linarith [show (den : ℚ) ≤ 2 * r by exact_mod_cast high]
  by_cases less : 2 * r < den
  · rw [if_pos less]
    constructor <;> linarith [least less.le]
  rw [if_neg less]
  have half := most (by omega)
  by_cases more : den < 2 * r
  · rw [if_pos more, Nat.cast_add, Nat.cast_one]
    constructor <;> linarith
  · have half' := least (by omega)
    rw [if_neg more]
    split
    · constructor <;> linarith
    · rw [Nat.cast_add, Nat.cast_one]
      constructor <;> linarith

private theorem cast_pow (n : Nat) : ((2 ^ n : Nat) : ℚ) = 2 ^ (n : Int) := by
  rw [Nat.cast_pow, Nat.cast_ofNat, zpow_natCast]

private theorem scaled (num den : Nat) (k : Int) :
    ((num * Nat.pow 2 (-k).toNat : Nat) : ℚ) / (den * Nat.pow 2 k.toNat : Nat) =
      num / den / 2 ^ k := by
  have power : (2 : ℚ) ^ k = 2 ^ k.toNat / 2 ^ (-k).toNat := by
    rw [← zpow_natCast, ← zpow_natCast, ← zpow_sub₀ (by norm_num), Int.toNat_sub_toNat_neg]
  have numerator : ((num * Nat.pow 2 (-k).toNat : Nat) : ℚ) = num * 2 ^ (-k).toNat := by
    exact_mod_cast rfl
  have denominator : ((den * Nat.pow 2 k.toNat : Nat) : ℚ) = den * 2 ^ k.toNat := by
    exact_mod_cast rfl
  rw [numerator, denominator, power]
  field_simp

/-- The scale of a quotient is the exponent that it is rounded at. -/
private theorem scaleOf_spec (some : num ≠ 0) (positive : 0 < den) :
    leastExponent ≤ scaleOf num den ∧ (num / den : ℚ) < 2 ^ (scaleOf num den + 53) ∧
      (leastExponent < scaleOf num den → (2 : ℚ) ^ (scaleOf num den + 52) ≤ num / den) := by
  have divisor : (0 : ℚ) < den := by exact_mod_cast positive
  have long : ((2 ^ num.log2 : Nat) : ℚ) ≤ num := by exact_mod_cast Nat.log2_self_le some
  have short : (num : ℚ) < (2 ^ (num.log2 + 1) : Nat) := by exact_mod_cast Nat.lt_log2_self
  have long' : ((2 ^ den.log2 : Nat) : ℚ) ≤ den := by
    exact_mod_cast Nat.log2_self_le positive.ne'
  have short' : (den : ℚ) ≤ (2 ^ (den.log2 + 1) : Nat) := by exact_mod_cast Nat.lt_log2_self.le
  generalize low : (num.log2 : Int) - den.log2 - 53 = k
  have upper : (num / den : ℚ) < 2 ^ (k + 54) := by
    rw [div_lt_iff₀ divisor]
    calc (num : ℚ) < (2 ^ (num.log2 + 1) : Nat) := short
      _ = 2 ^ (k + 54 + den.log2) := by rw [cast_pow]; congr 1; push_cast; omega
      _ = 2 ^ (k + 54) * (2 ^ den.log2 : Nat) := by rw [zpow_two_add (k + 54), cast_pow]
      _ ≤ 2 ^ (k + 54) * den := mul_le_mul_of_nonneg_left long' (zpow_two_pos _).le
  have lower : (2 : ℚ) ^ (k + 52) ≤ num / den := by
    rw [le_div_iff₀ divisor]
    calc (2 : ℚ) ^ (k + 52) * den ≤ 2 ^ (k + 52) * (2 ^ (den.log2 + 1) : Nat) :=
          mul_le_mul_of_nonneg_left short' (zpow_two_pos _).le
      _ = 2 ^ (k + 52 + (den.log2 + 1 : Nat)) := by rw [zpow_two_add (k + 52), cast_pow]
      _ = (2 ^ num.log2 : Nat) := by rw [cast_pow]; congr 1; push_cast; omega
      _ ≤ num := long
  have isWide : Nat.pow 2 53 * (den * Nat.pow 2 k.toNat) ≤ num * Nat.pow 2 (-k).toNat ↔
      (2 : ℚ) ^ (k + 53) ≤ num / den := by
    have place := zpow_two_pos k
    have positive' : (0 : ℚ) < (den * Nat.pow 2 k.toNat : Nat) := by
      exact_mod_cast Nat.mul_pos positive (Nat.two_pow_pos _)
    have high : (2 : ℚ) ^ (k + 53) = (Nat.pow 2 53 : Nat) * 2 ^ k := zpow_two_places k 53
    rw [← Nat.cast_le (α := ℚ), Nat.cast_mul, ← le_div_iff₀ positive', scaled,
      le_div_iff₀ place, high]
  rw [scaleOf, low]
  by_cases wide : (2 : ℚ) ^ (k + 53) ≤ num / den
  · rw [if_pos (isWide.mpr wide)]
    refine ⟨le_max_left _ _, upper.trans_le (zpow_two_le (by omega)), fun high => ?_⟩
    exact (zpow_two_le (by omega)).trans wide
  · rw [if_neg (mt isWide.mp wide)]
    refine ⟨le_max_left _ _, ?_, fun high => (zpow_two_le (by omega)).trans lower⟩
    exact (lt_of_not_ge wide).trans_le (zpow_two_le (by omega))

theorem rounded_quotient (some : num ≠ 0) (positive : 0 < den) :
    Rounded (num / den : ℚ) (roundDiv .toEven (num * Nat.pow 2 (-scaleOf num den).toNat)
      (den * Nat.pow 2 (scaleOf num den).toNat)) (scaleOf num den) := by
  obtain ⟨least, small, full⟩ := scaleOf_spec some positive
  generalize scaleOf num den = k at *
  have near := roundDiv_near (num * Nat.pow 2 (-k).toNat)
    (Nat.mul_pos positive (show 0 < Nat.pow 2 k.toNat from Nat.two_pow_pos _))
  rw [scaled] at near
  have place := zpow_two_pos k
  have units : (num / den / 2 ^ k * 2 ^ k : ℚ) = num / den := div_mul_cancel₀ _ place.ne'
  refine ⟨least, small, full, ?_, ?_⟩
  · linarith [mul_le_mul_of_nonneg_right near.1 place.le]
  · linarith [mul_le_mul_of_nonneg_right near.2 place.le]

theorem exists_stands_nearest (num : Nat) (positive : 0 < den)
    (bound : (num / den : ℚ) ≤ 2 ^ (1023 : Int)) :
    ∃ z, RoundsTo (num / den) z ∧ Stands (nearest false num den) z := by
  by_cases some : num = 0
  · subst some
    have none : (nearest false 0 den).toBits.toNat = 0 := by
      rw [toBits_nearest_false, quotientBits, Nat.zero_div, nearestBits, if_pos rfl]
    have stands := stands_of_toBits (none ▸ show 0 < infinityBits by decide)
    have zero : (Magnitude.ofBits 0).value = 0 := zero_mul _
    rw [none, zero] at stands
    rw [Nat.cast_zero, zero_div]
    exact ⟨0, stands.holds.roundsTo, stands⟩
  have common : 0 < num.gcd den := Nat.gcd_pos_of_pos_right num positive
  have lowest : (num / den : ℚ) = (num / num.gcd den : Nat) / (den / num.gcd den : Nat) := by
    rw [Nat.cast_div_charZero (Nat.gcd_dvd_left num den),
      Nat.cast_div_charZero (Nat.gcd_dvd_right num den)]
    field_simp
  have bits := toBits_nearest_false num den
  rw [quotientBits] at bits
  rw [lowest] at bound ⊢
  have some' : num / num.gcd den ≠ 0 :=
    (Nat.div_pos (Nat.gcd_le_left den (Nat.pos_of_ne_zero some)) common).ne'
  have positive' : 0 < den / num.gcd den := Nat.div_pos (Nat.gcd_le_right num positive) common
  generalize num / num.gcd den = n at *
  generalize den / num.gcd den = d at *
  have rounded := rounded_quotient some' positive'
  rw [nearestBits, if_neg some'] at bits
  dsimp only at bits
  generalize scaleOf n d = k at *
  generalize roundDiv _ _ _ = mantissa at *
  change _ = min infinityBits (bitsOf mantissa k) at bits
  have rounds : RoundsTo (n / d) (mantissa * 2 ^ k) := ⟨mantissa, k, rounded, rfl⟩
  have small := (rounds.le_pow (by decide) bound).trans_lt
    (zpow_two_lt (by decide : (1023 : Int) < 1024))
  have finite := rounded.bitsOf_lt small
  rw [min_eq_right finite.le] at bits
  refine ⟨_, rounds, ?_⟩
  rw [← rounded.value_ofBits finite, ← bits]
  exact stands_of_toBits (bits ▸ finite)

theorem exists_stands_ofNat {n : Nat} (small : n < UInt64.size) :
    ∃ z, RoundsTo n z ∧ Stands (ofNat n) z := by
  have quotient : ((n : ℚ) / (1 : Nat)) = n := by norm_num
  have bound : (n : ℚ) / (1 : Nat) ≤ 2 ^ (1023 : Int) := by
    rw [quotient]
    have bits : (n : ℚ) ≤ (2 ^ 64 : Nat) := by exact_mod_cast small.le
    rw [cast_pow] at bits
    exact bits.trans (zpow_two_le (by decide))
  have nearest := exists_stands_nearest n one_pos bound
  rwa [quotient] at nearest

end Quotients
end ToolTrial.Number
