import Mathlib
import ToolTrial.Number.Literal

/-!
Which floats are finite.  The bits of a float say so in the field of its exponent, and an integer of
64 bits is rounded to a float whose exponent is far below the field of the infinities.
-/

set_option autoImplicit false
set_option relaxedAutoImplicit false

namespace ToolTrial.Number

open Float.Model (Format UnpackedFloat)
open Float.Model.UnpackedFloat

theorem isFinite_unpack {b : BitVec Format.binary64.numBits} (small : unpackExponent b ≠ -1#11) :
    (UnpackedFloat.unpack Format.binary64 b).isFinite = true := by
  rw [UnpackedFloat.unpack]
  split
  · rename_i full
    exact absurd full small
  · split
    · split <;> rfl
    · rfl

theorem unpackExponent_pack_unpack {b : BitVec Format.binary64.numBits}
    (small : unpackExponent b ≠ -1#11) :
    unpackExponent (UnpackedFloat.pack Format.binary64
      (UnpackedFloat.unpack Format.binary64 b)) ≠ -1#11 := by
  have number : ¬ isNaNBits b := by
    intro full
    exact small (of_decide_eq_true full).1
  rwa [pack_unpack, if_neg number]

theorem isFinite_ofBits {bits : UInt64}
    (small : bits.toNat % Nat.pow 2 63 < infinityBits) : (Float.ofBits bits).isFinite = true := by
  apply isFinite_unpack
  apply unpackExponent_pack_unpack
  intro full
  have field : bits.toNat >>> 52 % 2048 = 2047 := congrArg BitVec.toNat full
  rw [Nat.shiftRight_eq_div_pow] at field
  change bits.toNat % 9223372036854775808 < 9218868437227405312 at small
  omega

theorem roundDiv_le (tie : Tie) (num den : Nat) : roundDiv tie num den ≤ num / den + 1 := by
  unfold roundDiv
  extract_lets quotient remainder
  split
  · omega
  split
  · omega
  split
  · omega
  split <;> omega

theorem scaleOf_one (n : Nat) :
    scaleOf n 1 = (n.log2 : Int) - 53 ∨ scaleOf n 1 = (n.log2 : Int) - 52 := by
  have unit : (1 : Nat).log2 = 0 := by decide
  unfold scaleOf
  extract_lets low wide
  have length : low = (n.log2 : Int) - 53 := by
    simp only [low, unit]
    omega
  rw [leastExponent]
  split <;> omega

theorem mantissa_lt (n : Nat) :
    n * Nat.pow 2 (-scaleOf n 1).toNat / (1 * Nat.pow 2 (scaleOf n 1).toNat) < Nat.pow 2 54 := by
  have scale := scaleOf_one n
  generalize scaleOf n 1 = s at scale
  have exponents : n.log2 + 1 + (-s).toNat ≤ 54 + s.toNat := by omega
  have positive (k : Nat) : 0 < Nat.pow 2 k := Nat.two_pow_pos k
  have split (j k : Nat) : Nat.pow 2 (j + k) = Nat.pow 2 j * Nat.pow 2 k := Nat.pow_add 2 j k
  have below : n < Nat.pow 2 (n.log2 + 1) := Nat.lt_log2_self
  rw [Nat.one_mul, Nat.div_lt_iff_lt_mul (positive _), ← split]
  calc n * Nat.pow 2 (-s).toNat
      < Nat.pow 2 (n.log2 + 1) * Nat.pow 2 (-s).toNat :=
        Nat.mul_lt_mul_of_pos_right below (positive _)
    _ = Nat.pow 2 (n.log2 + 1 + (-s).toNat) := (split _ _).symm
    _ ≤ Nat.pow 2 (54 + s.toNat) := Nat.pow_le_pow_right (by decide) exponents

theorem nearestBits_lt {n : Nat} (small : n < Nat.pow 2 65) : nearestBits n 1 < infinityBits := by
  unfold nearestBits
  split
  · decide
  · rename_i positive
    extract_lets scale mantissa
    have rounded : mantissa ≤ Nat.pow 2 54 := Nat.le_trans (roundDiv_le _ _ _) (mantissa_lt n)
    have length : n.log2 < 65 := (Nat.log2_lt positive).mpr small
    -- the field of the infinities is 2047
    have exponent : (scale - leastExponent).toNat ≤ 1086 := by
      have fixed : scale = (n.log2 : Int) - 53 ∨ scale = (n.log2 : Int) - 52 := scaleOf_one n
      rw [leastExponent]
      omega
    have field := Nat.mul_le_mul_right (Nat.pow 2 52) exponent
    apply Nat.lt_of_le_of_lt (Nat.min_le_right _ _)
    apply Nat.lt_of_le_of_lt (Nat.add_le_add field rounded)
    decide

/-- An integer of 64 bits, signed or not, is read as a finite float. -/
theorem isFinite_ofInt {n : Int} (least : leastInteger ≤ n) (greatest : n ≤ greatestInteger) :
    (ofInt n).isFinite = true := by
  have small : n.natAbs < Nat.pow 2 65 := by
    rw [leastInteger] at least
    rw [greatestInteger] at greatest
    change n.natAbs < 36893488147419103232
    omega
  have bits := nearestBits_lt small
  rw [infinityBits] at bits
  rw [ofInt, nearest]
  simp only [Nat.gcd_one_right, Nat.div_one]
  apply isFinite_ofBits
  have sign : Nat.pow 2 63 = 9223372036854775808 := rfl
  rw [infinityBits, sign, UInt64.toNat_ofNat']
  split <;> omega

end ToolTrial.Number
