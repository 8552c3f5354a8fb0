import Mathlib
import ToolTrial.Proofs.Rounding

/-!
A float is the nearest to what it stands for.  Rounding looks at a quotient in lowest terms, so it
hangs on the quotient only; at its own scale a magnitude has a whole mantissa, which rounding leaves
as it is, and scale and mantissa make up the bits that the magnitude was taken from.
-/

set_option autoImplicit false
set_option relaxedAutoImplicit false

namespace ToolTrial.Number

open Float.Model (Format UnpackedFloat)
open Float.Model.UnpackedFloat

section Bits

theorem unpackExponent_toNat (b : BitVec Format.binary64.numBits) :
    (unpackExponent b).toNat = b.toNat / 4503599627370496 % 2048 := by
  show b.toNat >>> 52 % 2048 = _
  rw [Nat.shiftRight_eq_div_pow]

theorem unpackMantissa_toNat (b : BitVec Format.binary64.numBits) :
    (unpackMantissa b).toNat = b.toNat % 4503599627370496 := rfl

theorem toBits_ofBits {bits : UInt64} (number : bits.toNat % Nat.pow 2 63 ≤ infinityBits) :
    (Float.ofBits bits).toBits = bits := by
  have noNaN : ¬ @isNaNBits Format.binary64 bits.toBitVec := by
    intro undefined
    obtain ⟨full, some⟩ := of_decide_eq_true undefined
    have field : (@unpackExponent Format.binary64 bits.toBitVec).toNat = 2047 :=
      congrArg BitVec.toNat full
    have fraction : (@unpackMantissa Format.binary64 bits.toBitVec).toNat ≠ 0 :=
      fun none => some (BitVec.eq_of_toNat_eq none)
    rw [unpackExponent_toNat, UInt64.toNat_toBitVec] at field
    rw [unpackMantissa_toNat, UInt64.toNat_toBitVec] at fraction
    change bits.toNat % 9223372036854775808 ≤ 9218868437227405312 at number
    omega
  show UInt64.ofBitVec (UnpackedFloat.pack Format.binary64
    (UnpackedFloat.unpack Format.binary64 bits.toBitVec)) = bits
  rw [pack_unpack, if_neg noNaN]

theorem bits_lt_of_isFinite {x : Float} (finite : x.isFinite = true) :
    x.toBits.toNat % Nat.pow 2 63 < infinityBits := by
  by_contra large
  have full : @unpackExponent Format.binary64 x.toBits.toBitVec = -1#11 := by
    apply BitVec.eq_of_toNat_eq
    rw [unpackExponent_toNat, UInt64.toNat_toBitVec]
    show _ = 2047
    change ¬ x.toBits.toNat % 9223372036854775808 < 9218868437227405312 at large
    omega
  have unbounded : x.isFinite = false := by
    show (UnpackedFloat.unpack Format.binary64 x.toBits.toBitVec).isFinite = false
    rw [UnpackedFloat.unpack]
    dsimp only
    rw [if_pos full]
    split <;> rfl
  rw [unbounded] at finite
  exact Bool.false_ne_true finite

end Bits

section Quotients

/-- The bits of the magnitude nearest to a quotient, which is taken in lowest terms. -/
def quotientBits (num den : Nat) : Nat :=
  nearestBits (num / num.gcd den) (den / num.gcd den)

theorem quotientBits_le (num den : Nat) : quotientBits num den ≤ infinityBits := by
  unfold quotientBits nearestBits
  split
  · exact Nat.zero_le _
  · exact Nat.min_le_left _ _

theorem nearest_eq (negative : Bool) (num den : Nat) : nearest negative num den =
    Float.ofBits (UInt64.ofNat (if negative then Nat.pow 2 63 + quotientBits num den
      else quotientBits num den)) :=
  rfl

theorem toBits_nearest_false (num den : Nat) :
    (nearest false num den).toBits.toNat = quotientBits num den := by
  have bound := quotientBits_le num den
  change quotientBits num den ≤ 9218868437227405312 at bound
  have kept : (UInt64.ofNat (quotientBits num den)).toNat = quotientBits num den := by
    rw [UInt64.toNat_ofNat']
    omega
  rw [nearest_eq, if_neg Bool.false_ne_true, toBits_ofBits, kept]
  rw [kept]
  show quotientBits num den % 9223372036854775808 ≤ 9218868437227405312
  omega

theorem nearest_isNegative {x : Float} {num den : Nat}
    (same : quotientBits num den = x.toBits.toNat % Nat.pow 2 63) :
    nearest (isNegative x) num den = x := by
  have bound : x.toBits.toNat < 18446744073709551616 := x.toBits.toNat_lt
  have restored : (if isNegative x then Nat.pow 2 63 + quotientBits num den
      else quotientBits num den) = x.toBits.toNat := by
    rw [same]
    change (if decide (9223372036854775808 ≤ x.toBits.toNat) = true then
      9223372036854775808 + x.toBits.toNat % 9223372036854775808
      else x.toBits.toNat % 9223372036854775808) = _
    split
    · rename_i negative
      have := of_decide_eq_true negative
      omega
    · rename_i positive
      have : ¬ 9223372036854775808 ≤ x.toBits.toNat := fun h => positive (decide_eq_true h)
      omega
  rw [nearest_eq, restored, UInt64.ofNat_toNat, Float.ofBits_toBits]

private theorem lowest_congr {num den num' den' : Nat} (positive : 0 < den) (positive' : 0 < den')
    (same : num * den' = num' * den) :
    num / num.gcd den = num' / num'.gcd den' ∧ den / num.gcd den = den' / num'.gcd den' := by
  have common : 0 < num.gcd den := Nat.gcd_pos_of_pos_right num positive
  have common' : 0 < num'.gcd den' := Nat.gcd_pos_of_pos_right num' positive'
  have coprime := Nat.coprime_div_gcd_div_gcd common
  have coprime' := Nat.coprime_div_gcd_div_gcd common'
  have hnum := Nat.div_mul_cancel (Nat.gcd_dvd_left num den)
  have hden := Nat.div_mul_cancel (Nat.gcd_dvd_right num den)
  have hnum' := Nat.div_mul_cancel (Nat.gcd_dvd_left num' den')
  have hden' := Nat.div_mul_cancel (Nat.gcd_dvd_right num' den')
  generalize num.gcd den = g at *
  generalize num'.gcd den' = g' at *
  generalize num / g = a at *
  generalize den / g = b at *
  generalize num' / g' = a' at *
  generalize den' / g' = b' at *
  have crossed : a * b' = a' * b := by
    subst hnum hden hnum' hden'
    apply Nat.eq_of_mul_eq_mul_right (Nat.mul_pos common common')
    calc a * b' * (g * g') = a * g * (b' * g') := by ring
      _ = a' * g' * (b * g) := same
      _ = a' * b * (g * g') := by ring
  constructor
  · apply Nat.dvd_antisymm
    · exact coprime.dvd_of_dvd_mul_right (crossed ▸ Nat.dvd_mul_right a b')
    · exact coprime'.dvd_of_dvd_mul_right (crossed ▸ Nat.dvd_mul_right a' b)
  · apply Nat.dvd_antisymm
    · exact coprime.symm.dvd_of_dvd_mul_left (crossed ▸ Nat.dvd_mul_left b a')
    · exact coprime'.symm.dvd_of_dvd_mul_left (crossed ▸ Nat.dvd_mul_left b' a)

theorem quotientBits_congr {num den num' den' : Nat} (positive : 0 < den) (positive' : 0 < den')
    (same : num * den' = num' * den) : quotientBits num den = quotientBits num' den' := by
  obtain ⟨above, below⟩ := lowest_congr positive positive' same
  rw [quotientBits, quotientBits, above, below]

theorem nearest_congr (negative : Bool) {num den num' den' : Nat} (positive : 0 < den)
    (positive' : 0 < den') (same : num * den' = num' * den) :
    nearest negative num den = nearest negative num' den' := by
  rw [nearest_eq, nearest_eq, quotientBits_congr positive positive' same]

end Quotients

section Magnitudes

private theorem positive (k : Nat) : 0 < Nat.pow 2 k := Nat.two_pow_pos k

private theorem two_pow_add (j k : Nat) : Nat.pow 2 (j + k) = Nat.pow 2 j * Nat.pow 2 k :=
  Nat.pow_add 2 j k

theorem den_pos (m : Magnitude) : 0 < m.den := positive _

/-- A magnitude as floats have them: with 53 bits, of which the first one is set unless the exponent
is the least one. -/
structure Canonical (m : Magnitude) : Prop where
  least : leastExponent ≤ m.exponent
  greatest : m.exponent ≤ 971
  small : m.mantissa < Nat.pow 2 53
  full : leastExponent < m.exponent → Nat.pow 2 52 ≤ m.mantissa

theorem ofBits_eq (bits : Nat) : Magnitude.ofBits bits =
    if bits / 4503599627370496 % 2048 = 0 then ⟨bits % 4503599627370496, -1074⟩
    else ⟨4503599627370496 + bits % 4503599627370496,
      (bits / 4503599627370496 % 2048 : Nat) - 1075⟩ := rfl

theorem canonical_ofBits {bits : Nat} (finite : bits < infinityBits) :
    Canonical (.ofBits bits) := by
  change bits < 9218868437227405312 at finite
  rw [ofBits_eq]
  split
  · refine ⟨Int.le_refl _, ?_, ?_, fun high => absurd high (Int.lt_irrefl _)⟩
    · show (-1074 : Int) ≤ 971
      decide
    · show bits % 4503599627370496 < 9007199254740992
      omega
  · refine ⟨?_, ?_, ?_, fun _ => Nat.le_add_right _ _⟩
    · show (-1074 : Int) ≤ (bits / 4503599627370496 % 2048 : Nat) - 1075
      omega
    · show ((bits / 4503599627370496 % 2048 : Nat) : Int) - 1075 ≤ 971
      omega
    · show 4503599627370496 + bits % 4503599627370496 < 9007199254740992
      omega

theorem bits_of_ofBits {bits : Nat} (finite : bits < infinityBits) :
    ((Magnitude.ofBits bits).exponent - leastExponent).toNat * Nat.pow 2 52 +
      (Magnitude.ofBits bits).mantissa = bits := by
  change bits < 9218868437227405312 at finite
  show _ * 4503599627370496 + _ = bits
  rw [ofBits_eq, leastExponent]
  split
  · show ((-1074 : Int) - -1074).toNat * 4503599627370496 + bits % 4503599627370496 = bits
    omega
  · show (((bits / 4503599627370496 % 2048 : Nat) : Int) - 1075 - -1074).toNat * 4503599627370496 +
      (4503599627370496 + bits % 4503599627370496) = bits
    omega

theorem roundDiv_mul (tie : Tie) (n : Nat) {d : Nat} (pos : 0 < d) :
    roundDiv tie (n * d) d = n := by
  unfold roundDiv
  simp only [Nat.mul_div_cancel n pos, Nat.mul_mod_left, Nat.mul_zero, pos, if_true]

theorem log2_mul_pow {n : Nat} (some : n ≠ 0) (k : Nat) :
    (n * Nat.pow 2 k).log2 = n.log2 + k := by
  rw [Nat.log2_eq_iff (Nat.mul_ne_zero some (Nat.ne_of_gt (positive k)))]
  constructor
  · rw [Nat.pow_add]
    exact Nat.mul_le_mul_right _ (Nat.log2_self_le some)
  · rw [Nat.add_right_comm, Nat.pow_add]
    exact Nat.mul_lt_mul_of_pos_right Nat.lt_log2_self (positive k)

variable {m : Magnitude} {num k : Nat}

private theorem num_ne_zero (some : m.mantissa ≠ 0) (same : num * m.den = m.num * Nat.pow 2 k) :
    num ≠ 0 := by
  rintro rfl
  have product : 0 < m.num * Nat.pow 2 k :=
    Nat.mul_pos (Nat.mul_pos (Nat.pos_of_ne_zero some) (positive _)) (positive k)
  rw [← same, Nat.zero_mul] at product
  exact Nat.lt_irrefl 0 product

private theorem scaleOf_eq (canonical : Canonical m) (some : m.mantissa ≠ 0)
    (same : num * m.den = m.num * Nat.pow 2 k) : scaleOf num (Nat.pow 2 k) = m.exponent := by
  obtain ⟨least, -, small, full⟩ := canonical
  have nonzero := num_ne_zero some same
  have length : num.log2 + (-m.exponent).toNat = m.mantissa.log2 + m.exponent.toNat + k := by
    have logs := congrArg Nat.log2 same
    rwa [Magnitude.den, Magnitude.num, log2_mul_pow nonzero, Nat.mul_assoc, ← two_pow_add,
      log2_mul_pow some, ← Nat.add_assoc] at logs
  have top : m.mantissa.log2 < 53 := (Nat.log2_lt some).mpr small
  have width : (Nat.pow 2 k).log2 = k := Nat.log2_two_pow
  unfold scaleOf
  extract_lets low wide
  have found : low = (m.mantissa.log2 : Int) + m.exponent - 53 := by
    simp only [low, width]
    omega
  -- the mantissa begins with the bit that the logarithm counts
  have isWide : wide := by
    have exponents : 53 + (k + low.toNat) + (-m.exponent).toNat =
        m.mantissa.log2 + (m.exponent.toNat + k + (-low).toNat) := by omega
    apply Nat.le_of_mul_le_mul_right _ (positive (-m.exponent).toNat)
    calc Nat.pow 2 53 * (Nat.pow 2 k * Nat.pow 2 low.toNat) * Nat.pow 2 (-m.exponent).toNat
        = Nat.pow 2 m.mantissa.log2 * Nat.pow 2 (m.exponent.toNat + k + (-low).toNat) := by
          rw [← two_pow_add, ← two_pow_add, ← two_pow_add, ← two_pow_add, exponents]
      _ ≤ m.mantissa * Nat.pow 2 (m.exponent.toNat + k + (-low).toNat) :=
          Nat.mul_le_mul_right _ (Nat.log2_self_le some)
      _ = num * m.den * Nat.pow 2 (-low).toNat := by
          rw [same, Magnitude.num, two_pow_add, two_pow_add]
          ring
      _ = num * Nat.pow 2 (-low).toNat * Nat.pow 2 (-m.exponent).toNat := by
          rw [Magnitude.den]
          ring
  rw [if_pos isWide, found, leastExponent] at *
  by_cases high : -1074 < m.exponent
  · have bits : 52 ≤ m.mantissa.log2 := (Nat.le_log2 some).mpr (full high)
    omega
  · omega

private theorem nearestBits_eq (canonical : Canonical m) (some : m.mantissa ≠ 0)
    (same : num * m.den = m.num * Nat.pow 2 k) : nearestBits num (Nat.pow 2 k) =
      min infinityBits ((m.exponent - leastExponent).toNat * Nat.pow 2 52 + m.mantissa) := by
  have scale := scaleOf_eq canonical some same
  have nonzero := num_ne_zero some same
  have whole : num * Nat.pow 2 (-m.exponent).toNat =
      m.mantissa * (Nat.pow 2 k * Nat.pow 2 m.exponent.toNat) := by
    rw [Magnitude.den, Magnitude.num] at same
    rw [same]
    ring
  rw [nearestBits, if_neg nonzero, scale]
  dsimp only
  rw [whole, roundDiv_mul _ _ (Nat.mul_pos (positive _) (positive _))]

theorem quotientBits_ofBits {bits : Nat} (finite : bits < infinityBits) :
    quotientBits (Magnitude.ofBits bits).num (Magnitude.ofBits bits).den = bits := by
  have canonical := canonical_ofBits finite
  have again := bits_of_ofBits finite
  generalize Magnitude.ofBits bits = m at *
  by_cases none : m.mantissa = 0
  · -- of all magnitudes without a mantissa only that of no bits is canonical
    have noBits : bits = 0 := by
      by_cases high : leastExponent < m.exponent
      · have := canonical.full high
        rw [none] at this
        exact absurd this (by decide)
      · have := canonical.least
        have lowest : (m.exponent - leastExponent).toNat = 0 := by omega
        rw [lowest, none] at again
        exact again.symm
    have zero : m.num = 0 := by rw [Magnitude.num, none, Nat.zero_mul]
    rw [quotientBits, zero, Nat.zero_div, nearestBits, if_pos rfl, noBits]
  · obtain ⟨k, lowest⟩ : ∃ k, m.den / m.num.gcd m.den = Nat.pow 2 k := by
      have divides : m.den / m.num.gcd m.den ∣ 2 ^ (-m.exponent).toNat :=
        Nat.div_dvd_of_dvd (Nat.gcd_dvd_right m.num m.den)
      obtain ⟨k, -, lowest⟩ := (Nat.dvd_prime_pow Nat.prime_two).mp divides
      exact ⟨k, lowest⟩
    have same : m.num / m.num.gcd m.den * m.den = m.num * Nat.pow 2 k := by
      rw [← lowest, Nat.div_mul_right_comm (Nat.gcd_dvd_left m.num m.den),
        Nat.mul_div_assoc _ (Nat.gcd_dvd_right m.num m.den)]
    rw [quotientBits, lowest, nearestBits_eq canonical none same, again]
    exact Nat.min_eq_right (Nat.le_of_lt finite)

/-- A finite float is the nearest to every quotient that it stands for. -/
theorem quotientBits_magnitude {x : Float} (finite : x.isFinite = true) {num den : Nat}
    (positive : 0 < den) (same : num * (magnitude x).den = (magnitude x).num * den) :
    quotientBits num den = x.toBits.toNat % Nat.pow 2 63 := by
  rw [quotientBits_congr positive (den_pos (magnitude x)) same]
  exact quotientBits_ofBits (bits_lt_of_isFinite finite)

end Magnitudes
end ToolTrial.Number
