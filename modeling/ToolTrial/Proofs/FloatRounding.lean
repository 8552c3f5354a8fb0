import Mathlib
import ToolTrial.Proofs.Nearest

/-!
The rounding of machine arithmetic, seen through rational numbers.  A magnitude is kept with 53
bits, or at the least exponent; what is lost moves it by half a unit of its last place at most, so
it does not cross a magnitude that is kept as it is.
-/

set_option autoImplicit false
set_option relaxedAutoImplicit false

namespace ToolTrial.Number

open Float.Model (Format UnpackedFloat totalExponent)
open Float.Model.UnpackedFloat

theorem zpow_two_pos (k : Int) : (0 : ℚ) < 2 ^ k := zpow_pos (by norm_num) k

theorem zpow_two_le {j k : Int} (h : j ≤ k) : (2 : ℚ) ^ j ≤ 2 ^ k :=
  zpow_le_zpow_right₀ (by norm_num) h

theorem zpow_two_lt {j k : Int} (h : j < k) : (2 : ℚ) ^ j < 2 ^ k :=
  zpow_lt_zpow_right₀ (by norm_num) h

theorem zpow_two_add (j k : Int) : (2 : ℚ) ^ (j + k) = 2 ^ j * 2 ^ k :=
  zpow_add₀ (by norm_num) j k

theorem zpow_two_places (k : Int) (d : Nat) :
    (2 : ℚ) ^ (k + d) = (2 ^ d : Nat) * 2 ^ k := by
  rw [zpow_two_add, zpow_natCast, Nat.cast_pow, Nat.cast_ofNat, mul_comm]

theorem pow_le_mul {n : Nat} (long : 2 ^ 52 ≤ n) (k : Int) : (2 : ℚ) ^ (k + 52) ≤ n * 2 ^ k :=
  calc (2 : ℚ) ^ (k + 52) = (2 ^ 52 : Nat) * 2 ^ k := zpow_two_places k 52
    _ ≤ n * 2 ^ k := mul_le_mul_of_nonneg_right (by exact_mod_cast long) (zpow_two_pos k).le

theorem mul_lt_pow {n : Nat} (small : n < 2 ^ 53) (k : Int) : (n : ℚ) * 2 ^ k < 2 ^ (k + 53) :=
  calc (n : ℚ) * 2 ^ k < (2 ^ 53 : Nat) * 2 ^ k :=
        mul_lt_mul_of_pos_right (by exact_mod_cast small) (zpow_two_pos k)
    _ = 2 ^ (k + 53) := (zpow_two_places k 53).symm

theorem quotient_eq_add (num : Nat) {den : Nat} (positive : 0 < den) :
    (num / den : ℚ) = (num / den : Nat) + (num % den : Nat) / den := by
  have whole : (num : ℚ) = den * (num / den : Nat) + (num % den : Nat) := by
    exact_mod_cast (Nat.div_add_mod num den).symm
  have divisor : (den : ℚ) ≠ 0 := by exact_mod_cast positive.ne'
  calc (num / den : ℚ) = (den * (num / den : Nat) + (num % den : Nat)) / den := by rw [← whole]
    _ = (num / den : Nat) + (num % den : Nat) / den := by field_simp

section Rounding

/-- A magnitude is rounded to a mantissa at an exponent: it has 53 bits before the last place that
is kept, or fewer at the least exponent, and the mantissa is nearest to it. -/
structure Rounded (v : ℚ) (mantissa : Nat) (exponent : Int) : Prop where
  least : leastExponent ≤ exponent
  small : v < 2 ^ (exponent + 53)
  full : leastExponent < exponent → (2 : ℚ) ^ (exponent + 52) ≤ v
  above : v - 2 ^ exponent / 2 ≤ mantissa * 2 ^ exponent
  below : (mantissa : ℚ) * 2 ^ exponent ≤ v + 2 ^ exponent / 2

variable {v z : ℚ} {mantissa n : Nat} {exponent k : Int}

private theorem Rounded.mantissa_le_of_lt (h : Rounded v mantissa exponent)
    (bound : v < n * 2 ^ exponent + 2 ^ exponent / 2) : mantissa ≤ n := by
  have place := zpow_two_pos exponent
  have scaled : (mantissa : ℚ) * 2 ^ exponent < (n + 1) * 2 ^ exponent := by
    linarith [h.below]
  have close : (mantissa : ℚ) < n + 1 := lt_of_mul_lt_mul_right scaled place.le
  exact Nat.lt_succ_iff.mp (by exact_mod_cast close)

private theorem Rounded.mantissa_le_of_le (h : Rounded v mantissa exponent)
    (bound : v ≤ n * 2 ^ exponent) : mantissa ≤ n :=
  h.mantissa_le_of_lt (by linarith [zpow_two_pos exponent])

private theorem Rounded.le_mantissa_of_le (h : Rounded v mantissa exponent)
    (bound : n * 2 ^ exponent ≤ v) : n ≤ mantissa := by
  have place := zpow_two_pos exponent
  have scaled : (n : ℚ) * 2 ^ exponent < (mantissa + 1) * 2 ^ exponent := by
    linarith [h.above]
  have close : (n : ℚ) < mantissa + 1 := lt_of_mul_lt_mul_right scaled place.le
  exact Nat.lt_succ_iff.mp (by exact_mod_cast close)

theorem Rounded.mantissa_le (h : Rounded v mantissa exponent) : mantissa ≤ 2 ^ 53 := by
  apply h.mantissa_le_of_le
  rw [← zpow_two_places]
  exact h.small.le

theorem Rounded.le_mantissa (h : Rounded v mantissa exponent) (high : leastExponent < exponent) :
    2 ^ 52 ≤ mantissa := by
  apply h.le_mantissa_of_le
  rw [← zpow_two_places]
  exact h.full high

def RoundsTo (v z : ℚ) : Prop :=
  ∃ mantissa exponent, Rounded v mantissa exponent ∧ z = mantissa * 2 ^ exponent

private theorem exists_multiple (n : Nat) (h : exponent ≤ k) :
    ∃ m : Nat, (n : ℚ) * 2 ^ k = m * 2 ^ exponent := by
  obtain ⟨d, rfl⟩ := Int.le.dest h
  refine ⟨n * 2 ^ d, ?_⟩
  rw [zpow_two_places, Nat.cast_mul, mul_assoc]

theorem RoundsTo.le_of_le (h : RoundsTo v z) (small : n < 2 ^ 53) (least : leastExponent ≤ k)
    (bound : v ≤ n * 2 ^ k) : z ≤ n * 2 ^ k := by
  obtain ⟨mantissa, exponent, rounded, rfl⟩ := h
  rcases le_or_gt exponent k with low | high
  · obtain ⟨m, same⟩ := exists_multiple n low
    rw [same] at bound ⊢
    have le := rounded.mantissa_le_of_le bound
    exact mul_le_mul_of_nonneg_right (by exact_mod_cast le) (zpow_two_pos exponent).le
  · -- the bound has too few bits for the exponent
    have full := rounded.full (lt_of_le_of_lt least high)
    have few := mul_lt_pow small k
    have exponents : (2 : ℚ) ^ (k + 53) ≤ 2 ^ (exponent + 52) := zpow_two_le (by omega)
    linarith

theorem RoundsTo.ge_of_ge (h : RoundsTo v z) (small : n < 2 ^ 53) (least : leastExponent ≤ k)
    (bound : n * 2 ^ k ≤ v) : n * 2 ^ k ≤ z := by
  obtain ⟨mantissa, exponent, rounded, rfl⟩ := h
  rcases le_or_gt exponent k with low | high
  · obtain ⟨m, same⟩ := exists_multiple n low
    rw [same] at bound ⊢
    have le := rounded.le_mantissa_of_le bound
    exact mul_le_mul_of_nonneg_right (by exact_mod_cast le) (zpow_two_pos exponent).le
  · have many := rounded.le_mantissa (lt_of_le_of_lt least high)
    calc (n : ℚ) * 2 ^ k ≤ 2 ^ (k + 53) := (mul_lt_pow small k).le
      _ ≤ 2 ^ (exponent + 52) := zpow_two_le (by omega)
      _ ≤ mantissa * 2 ^ exponent := pow_le_mul many exponent

theorem RoundsTo.nonneg (h : RoundsTo v z) : 0 ≤ z := by
  obtain ⟨mantissa, exponent, -, rfl⟩ := h
  exact mul_nonneg (Nat.cast_nonneg _) (zpow_two_pos exponent).le

theorem RoundsTo.le_pow (h : RoundsTo v z) (least : leastExponent ≤ k) (bound : v ≤ 2 ^ k) :
    z ≤ 2 ^ k := by
  have single := h.le_of_le (n := 1) (by norm_num) least
  rw [Nat.cast_one, one_mul] at single
  exact single bound

theorem RoundsTo.pow_le (h : RoundsTo v z) (least : leastExponent ≤ k) (bound : 2 ^ k ≤ v) :
    2 ^ k ≤ z := by
  have single := h.ge_of_ge (n := 1) (by norm_num) least
  rw [Nat.cast_one, one_mul] at single
  exact single bound

theorem RoundsTo.nonpos (h : RoundsTo v z) (bound : v ≤ 0) : z ≤ 0 := by
  have none := h.le_of_le (n := 0) (by norm_num) (le_refl leastExponent)
  rw [Nat.cast_zero, zero_mul] at none
  exact none bound

theorem RoundsTo.eq_zero (h : RoundsTo 0 z) : z = 0 :=
  le_antisymm (h.nonpos le_rfl) h.nonneg

/-- What lies beyond the last place of a power of two is lost when it is added. -/
theorem RoundsTo.le_of_absorbed (h : RoundsTo v z) (normal : leastExponent + 52 ≤ k)
    (bound : v ≤ 2 ^ k + 2 ^ (k - 54)) : z ≤ 2 ^ k := by
  rcases le_or_gt v (2 ^ k) with le | above
  · exact h.le_pow (by omega) le
  obtain ⟨mantissa, exponent, rounded, rfl⟩ := h
  have double : v < 2 ^ (k + 1) := by
    have less : (2 : ℚ) ^ (k - 54) < 2 ^ k := zpow_two_lt (by omega)
    rw [zpow_two_add, zpow_one]
    linarith
  have lower : k < exponent + 53 :=
    (zpow_lt_zpow_iff_right₀ (by norm_num : (1 : ℚ) < 2)).mp (above.trans rounded.small)
  obtain rfl : k = exponent + 52 := by
    rcases lt_or_ge leastExponent exponent with high | low
    · have upper : exponent + 52 < k + 1 :=
        (zpow_lt_zpow_iff_right₀ (by norm_num : (1 : ℚ) < 2)).mp
          ((rounded.full high).trans_lt double)
      omega
    · omega
  have top : (2 : ℚ) ^ (exponent + 52) = (2 ^ 52 : Nat) * 2 ^ exponent :=
    zpow_two_places exponent 52
  have rest : (2 : ℚ) ^ (exponent + 52 - 54) = 2 ^ exponent / 4 := by
    rw [show exponent + 52 - 54 = exponent + -2 by ring, zpow_two_add]
    norm_num
    ring
  have le : mantissa ≤ 2 ^ 52 := by
    apply rounded.mantissa_le_of_lt
    rw [← top]
    linarith [zpow_two_pos exponent]
  rw [top]
  exact mul_le_mul_of_nonneg_right (by exact_mod_cast le) (zpow_two_pos exponent).le

end Rounding

section Mantissas

variable {em : ExtendedMantissa} {v : ℚ}

/-- What an extended mantissa says of a number: a set round bit counts for a half, and a set sticky
bit for something below a half. -/
def Covers (em : ExtendedMantissa) (v : ℚ) : Prop :=
  let known : ℚ := em.mantissa + if em.roundBit then 1 / 2 else 0
  if em.stickyBit then known < v ∧ v < known + 1 / 2 else v = known

theorem Covers.mantissa_le (h : Covers em v) : em.mantissa ≤ v ∧ v < em.mantissa + 1 := by
  obtain ⟨m, roundBit, stickyBit⟩ := em
  cases roundBit <;> cases stickyBit <;> simp only [Covers] at h ⊢ <;> norm_num at h <;>
    constructor <;> linarith

theorem Covers.shiftRightOne (h : Covers em v) : Covers em.shiftRightOne (v / 2) := by
  obtain ⟨m, roundBit, stickyBit⟩ := em
  obtain ⟨q, rfl | rfl⟩ : ∃ q, m = 2 * q ∨ m = 2 * q + 1 := ⟨m / 2, by omega⟩
  · have half : 2 * q / 2 = q := by omega
    have bit : (2 * q % 2 != 0) = false := by simp
    cases roundBit <;> cases stickyBit <;>
      simp only [Covers, ExtendedMantissa.shiftRightOne, half, bit] at h ⊢ <;>
      norm_num at h ⊢ <;> first | linarith | constructor <;> linarith
  · have half : (2 * q + 1) / 2 = q := by omega
    have bit : ((2 * q + 1) % 2 != 0) = true := by simp
    cases roundBit <;> cases stickyBit <;>
      simp only [Covers, ExtendedMantissa.shiftRightOne, half, bit] at h ⊢ <;>
      norm_num at h ⊢ <;> first | linarith | constructor <;> linarith

theorem Covers.shiftRight (h : Covers em v) (n : Nat) : Covers (em >>> n) (v / 2 ^ n) := by
  show Covers (n.repeat ExtendedMantissa.shiftRightOne em) _
  induction n with
  | zero => simpa [Nat.repeat] using h
  | succ n ih =>
    rw [Nat.repeat, pow_succ, ← div_div]
    exact ih.shiftRightOne

theorem Covers.roundedMantissa (h : Covers em v) :
    v - 1 / 2 ≤ em.roundedMantissa ∧ em.roundedMantissa ≤ v + 1 / 2 := by
  obtain ⟨m, roundBit, stickyBit⟩ := em
  have parity : m % 2 ≤ 1 := by omega
  have bit : ((m % 2 : Nat) : ℚ) ≤ 1 := by exact_mod_cast parity
  have bit' : (0 : ℚ) ≤ (m % 2 : Nat) := Nat.cast_nonneg _
  cases roundBit <;> cases stickyBit <;>
    simp only [Covers, ExtendedMantissa.roundedMantissa, ExtendedMantissa.accuracy,
      Accuracy.roundToNearestEven] at h ⊢ <;>
    push_cast <;> norm_num at h <;> constructor <;> linarith

theorem covers_exact (m : Nat) : Covers (.ofMantissaAndAccuracy m .exact) m := by
  simp [Covers, ExtendedMantissa.ofMantissaAndAccuracy]

theorem covers_quotient (num : Nat) {den : Nat} (positive : 0 < den) :
    Covers (.ofMantissaAndAccuracy (num / den) (accuracyOfFraction (num % den) den))
      (num / den : ℚ) := by
  have divisor : (0 : ℚ) < den := by exact_mod_cast positive
  have below : ((num % den : Nat) : ℚ) < den := by exact_mod_cast Nat.mod_lt num positive
  rw [quotient_eq_add num positive]
  generalize num / den = q at *
  generalize num % den = r at *
  by_cases none : r = 0
  · simp [accuracyOfFraction, none, Covers, ExtendedMantissa.ofMantissaAndAccuracy]
  · have some : (0 : ℚ) < r := by exact_mod_cast Nat.pos_of_ne_zero none
    have fraction : (0 : ℚ) < r / den := div_pos some divisor
    rw [accuracyOfFraction, if_neg none]
    rcases lt_trichotomy (2 * r) den with less | half | more
    · have rest : (r : ℚ) / den < 1 / 2 := by
        rw [div_lt_iff₀ divisor]
        linarith [show (2 * r : ℚ) < den by exact_mod_cast less]
      rw [Nat.compare_eq_lt.mpr less]
      show q + (0 : ℚ) < q + r / den ∧ q + r / den < q + (0 : ℚ) + 1 / 2
      constructor <;> linarith
    · have rest : (r : ℚ) / den = 1 / 2 := by
        rw [div_eq_iff divisor.ne']
        linarith [show (2 * r : ℚ) = den by exact_mod_cast half]
      rw [Nat.compare_eq_eq.mpr half]
      show q + (r : ℚ) / den = q + 1 / 2
      rw [rest]
    · have rest : 1 / 2 < (r : ℚ) / den := by
        rw [lt_div_iff₀ divisor]
        linarith [show (den : ℚ) < 2 * r by exact_mod_cast more]
      have proper : (r : ℚ) / den < 1 := (div_lt_one divisor).mpr below
      rw [Nat.compare_eq_gt.mpr more]
      show q + 1 / 2 < q + (r : ℚ) / den ∧ q + (r : ℚ) / den < q + 1 / 2 + 1 / 2
      constructor <;> linarith

end Mantissas

section Machine

/-- An unpacked float has a sign and stands for a magnitude, in the form in which floats are
kept. -/
inductive Carries : UnpackedFloat → Sign → ℚ → Prop
  | zero (s : Sign) : Carries (.zero s) s 0
  | finite (s : Sign) {m : Nat} {e : Int} (some : 0 < m) (small : m < 2 ^ 53)
      (least : leastExponent ≤ e) (full : leastExponent < e → 2 ^ 52 ≤ m) :
      Carries (.finite s m e some) s (m * 2 ^ e)

theorem Carries.roundsTo {u : UnpackedFloat} {s : Sign} {z : ℚ} (h : Carries u s z) :
    RoundsTo z z := by
  cases h with
  | zero =>
    refine ⟨0, leastExponent,
      ⟨le_rfl, by positivity, fun high => absurd high (lt_irrefl _), ?_, ?_⟩, ?_⟩
    all_goals norm_num
    all_goals positivity
  | finite s some small least full =>
    rename_i m e
    have place := zpow_two_pos e
    exact ⟨m, e, ⟨least, mul_lt_pow small e, fun high => pow_le_mul (full high) e, by linarith,
      by linarith⟩, rfl⟩

theorem targetExponent_eq_max (total : Int) :
    Format.binary64.targetExponent total = max (total - 53) leastExponent := by
  have lowest : Format.binary64.minExponent = leastExponent := by decide
  rw [Format.targetExponent, lowest]
  rfl

private theorem targetExponent_eq (m : Nat) (e : Int) :
    Format.binary64.targetExponent (totalExponent m e) = max (m.log2 + e - 52) leastExponent := by
  rw [targetExponent_eq_max, totalExponent]
  congr 1
  ring

variable {s : Sign} {m : Nat} {e : Int} {accuracy : Accuracy} {v : ℚ}

private theorem covered_bounds (covers : Covers (.ofMantissaAndAccuracy m accuracy) v) :
    m ≤ v ∧ v < m + 1 := by
  have kept : (ExtendedMantissa.ofMantissaAndAccuracy m accuracy).mantissa = m := by
    cases accuracy with
    | exact => rfl
    | inexact order => cases order <;> rfl
  have bounds := covers.mantissa_le
  rwa [kept] at bounds

private theorem rounded_of_covers (covers : Covers (.ofMantissaAndAccuracy m accuracy) v)
    (wide : 52 ≤ m.log2 ∨ e ≤ leastExponent) :
    let shifted := shiftToTargetExponent Format.binary64 m e accuracy
    Rounded (v * 2 ^ e) shifted.1.roundedMantissa shifted.2 := by
  obtain ⟨lower, upper⟩ := covered_bounds covers
  rw [shiftToTargetExponent, targetExponent_eq, shiftToExponent]
  dsimp only
  generalize target : max ((m.log2 : Int) + e - 52) leastExponent = exponent
  obtain ⟨n, rfl⟩ : ∃ n : Nat, exponent = e + n :=
    (Int.le.dest (by omega)).imp fun _ reached => reached.symm
  have shift : (e + n - e).toNat = n := by omega
  rw [shift]
  have place := zpow_two_pos (e + n)
  have units : v / 2 ^ n * 2 ^ (e + n : Int) = v * 2 ^ e := by
    rw [zpow_two_add, zpow_natCast]
    field_simp
  have nearest := (covers.shiftRight n).roundedMantissa
  refine ⟨by omega, ?_, fun high => ?_, ?_, ?_⟩
  · have short : m + 1 ≤ 2 ^ (m.log2 + 1) := Nat.lt_log2_self
    have below : v < (2 ^ (m.log2 + 1) : Nat) := upper.trans_le (by exact_mod_cast short)
    calc v * 2 ^ e < (2 ^ (m.log2 + 1) : Nat) * 2 ^ e :=
      mul_lt_mul_of_pos_right below (zpow_two_pos e)
      _ = 2 ^ (e + (m.log2 + 1 : Nat)) := (zpow_two_places e _).symm
      _ ≤ 2 ^ (e + n + 53 : Int) := zpow_two_le (by push_cast; omega)
  · -- only a mantissa with all its bits is shifted above the least exponent
    have bits : 52 ≤ m.log2 := by omega
    have some : m ≠ 0 := by
      rintro rfl
      simp at bits
    have long : ((2 ^ m.log2 : Nat) : ℚ) ≤ m := by exact_mod_cast Nat.log2_self_le some
    calc (2 : ℚ) ^ (e + n + 52 : Int) = 2 ^ (e + m.log2) := by congr 1; omega
      _ = (2 ^ m.log2 : Nat) * 2 ^ e := zpow_two_places e _
      _ ≤ v * 2 ^ e := mul_le_mul_of_nonneg_right (long.trans lower) (zpow_two_pos e).le
  · rw [← units]
    linarith [mul_le_mul_of_nonneg_right nearest.1 place.le]
  · rw [← units]
    linarith [mul_le_mul_of_nonneg_right nearest.2 place.le]

private theorem shift_small (small : m < 2 ^ 53) (least : leastExponent ≤ e) :
    shiftToTargetExponent Format.binary64 m e .exact = (⟨m, false, false⟩, e) := by
  have bits : m.log2 ≤ 52 := by
    by_cases none : m = 0
    · simp [none]
    · exact Nat.lt_succ_iff.mp ((Nat.log2_lt none).mpr small)
  have still : (max (m.log2 + e - 52) leastExponent - e).toNat = 0 := by omega
  rw [shiftToTargetExponent, targetExponent_eq, shiftToExponent, still]
  simp [HShiftRight.hShiftRight, Nat.repeat, ExtendedMantissa.ofMantissaAndAccuracy]

private theorem shift_carry (least : leastExponent ≤ e) :
    shiftToTargetExponent Format.binary64 (2 ^ 53) e .exact = (⟨2 ^ 52, false, false⟩, e + 1) := by
  have bits : (2 ^ 53 : Nat).log2 = 53 := Nat.log2_two_pow
  have once : (max (((2 ^ 53 : Nat).log2 : Int) + e - 52) leastExponent - e).toNat = 1 := by
    rw [bits]
    omega
  rw [shiftToTargetExponent, targetExponent_eq, shiftToExponent, once]
  simp [HShiftRight.hShiftRight, Nat.repeat, ExtendedMantissa.ofMantissaAndAccuracy,
    ExtendedMantissa.shiftRightOne]

/-- Machine rounding gives a float of the same sign, whose magnitude is the rounded one. -/
theorem roundWithAccuracy_carries (s : Sign)
    (covers : Covers (.ofMantissaAndAccuracy m accuracy) v)
    (wide : 52 ≤ m.log2 ∨ e ≤ leastExponent) :
    ∃ z, RoundsTo (v * 2 ^ e) z ∧
      Carries (roundWithAccuracy Format.binary64 s m e accuracy) s z := by
  have rounded := rounded_of_covers covers wide
  rw [roundWithAccuracy]
  generalize shiftToTargetExponent Format.binary64 m e accuracy = shifted at *
  obtain ⟨em, exponent⟩ := shifted
  dsimp only at *
  refine ⟨_, ⟨_, _, rounded, rfl⟩, ?_⟩
  rcases rounded.mantissa_le.lt_or_eq with small | carry
  · rw [shift_small small rounded.least]
    dsimp only
    split
    · rename_i none
      rw [none, Nat.cast_zero, zero_mul]
      exact .zero s
    · exact .finite s _ small rounded.least rounded.le_mantissa
  · rw [carry, shift_carry rounded.least]
    dsimp only
    rw [dif_neg (by norm_num)]
    have same : ((2 ^ 53 : Nat) : ℚ) * 2 ^ exponent = (2 ^ 52 : Nat) * 2 ^ (exponent + 1) := by
      rw [zpow_two_add]
      push_cast
      ring
    rw [same]
    exact .finite s _ (by norm_num) (by have := rounded.least; omega) fun _ => le_rfl

theorem round_carries (s : Sign) (some : m ≠ 0) (e : Int) :
    ∃ z, RoundsTo (m * 2 ^ e) z ∧ Carries (UnpackedFloat.round Format.binary64 s m e) s z := by
  rw [UnpackedFloat.round, targetExponent_eq, decreaseExponent]
  dsimp only
  generalize shift : (e - max ((m.log2 : Int) + e - 52) leastExponent).toNat = n
  have bits : (m <<< n).log2 = m.log2 + n := by
    rw [Nat.shiftLeft_eq]
    exact log2_mul_pow some n
  have same : ((m <<< n : Nat) : ℚ) * 2 ^ (e - n) = m * 2 ^ e := by
    rw [Nat.shiftLeft_eq, Nat.cast_mul, mul_assoc, ← zpow_two_places, sub_add_cancel]
  rw [← same]
  exact roundWithAccuracy_carries s (covers_exact _) (by omega)

theorem normalize_carries (n : Int) (e : Int) :
    ∃ z, RoundsTo (n.natAbs * 2 ^ e) z ∧
      Carries (UnpackedFloat.normalize Format.binary64 n e .positive)
      (if n < 0 then .negative else .positive) z := by
  rcases lt_trichotomy n 0 with negative | rfl | positive
  · have magnitude : (-n).toNat = n.natAbs := by omega
    rw [UnpackedFloat.normalize, Int.compare_eq_lt.mpr negative, if_pos negative]
    dsimp only
    rw [magnitude]
    exact round_carries .negative (by omega) e
  · refine ⟨0, ?_, .zero .positive⟩
    rw [Int.natAbs_zero, Nat.cast_zero, zero_mul]
    exact (Carries.zero .positive).roundsTo
  · have magnitude : n.toNat = n.natAbs := by omega
    rw [UnpackedFloat.normalize, Int.compare_eq_gt.mpr positive, if_neg (by omega)]
    dsimp only
    rw [magnitude]
    exact round_carries .positive (by omega) e

end Machine
end ToolTrial.Number
