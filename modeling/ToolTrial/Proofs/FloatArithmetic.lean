import Mathlib
import ToolTrial.Proofs.FloatRounding

/-!
Sums, differences and quotients of floats, in rational numbers.  A float that is not negative stands
for a rational number; the sum or the quotient of two such floats stands for the rounded sum or
quotient of what they stand for, or is infinite where that is too large.
-/

set_option autoImplicit false
set_option relaxedAutoImplicit false

namespace ToolTrial.Number

open Float.Model (Format UnpackedFloat totalExponent)
open Float.Model.UnpackedFloat

section Packing

/-- What is left of an unpacked float when it is packed. -/
def kept (u : UnpackedFloat) : UnpackedFloat :=
  UnpackedFloat.unpack Format.binary64 (UnpackedFloat.pack Format.binary64 u)

theorem kept_infinity (s : Sign) : kept (.infinity s) = .infinity s := by
  simp [kept, UnpackedFloat.pack, UnpackedFloat.unpack, packedInfinity]

theorem kept_zero (s : Sign) : kept (.zero s) = .zero s := unpack_packedZero

variable {s : Sign} {m : Nat} {e : Int} {u : UnpackedFloat} {v w z : ℚ}

private theorem toNat_one_append (fraction : BitVec 52) :
    (1#1 ++ fraction).toNat = 2 ^ 52 + fraction.toNat := by
  have apart := Nat.two_pow_add_eq_or_of_lt fraction.isLt 1
  rw [BitVec.toNat_append, Nat.shiftLeft_eq, BitVec.toNat_ofNat]
  rw [Nat.mul_one] at apart
  rw [apart]

private theorem finite_congr {m' : Nat} {e' : Int} {some : 0 < m} {some' : 0 < m'}
    (mantissa : m = m') (exponent : e = e') :
    UnpackedFloat.finite s m e some = .finite s m' e' some' := by
  subst mantissa exponent
  rfl

private theorem pack_finite (s : Sign) (some : 0 < m) (e : Int) :
    UnpackedFloat.pack Format.binary64 (.finite s m e some) =
      if 2048 ≤ (e + 1075).toNat + 1 then packedInfinity Format.binary64 s
      else if m.log2 = 52 then
        packComponents Format.binary64 s (BitVec.ofNat 11 (e + 1075).toNat) (BitVec.ofNat 52 m)
      else packComponents Format.binary64 s 0#11 (BitVec.ofNat 52 m) := by
  have biased : e + (1023 : Nat) + (52 : Nat) = e + 1075 := by omega
  have width : m.log2 + 1 = 53 ↔ m.log2 = 52 := by omega
  show (if 2048 ≤ (e + (1023 : Nat) + (52 : Nat)).toNat + 1 then packedInfinity Format.binary64 s
    else if m.log2 + 1 = 53 then packComponents Format.binary64 s
      (BitVec.ofNat 11 (e + (1023 : Nat) + (52 : Nat)).toNat) (BitVec.ofNat 52 m)
    else packComponents Format.binary64 s 0#11 (BitVec.ofNat 52 m)) = _
  simp only [biased, width]

private theorem kept_overflow (some : 0 < m) (large : 972 ≤ e) :
    kept (.finite s m e some) = .infinity s := by
  rw [kept, pack_finite, if_pos (by omega)]
  exact kept_infinity s

private theorem kept_finite (some : 0 < m) (small : m < 2 ^ 53) (least : leastExponent ≤ e)
    (full : leastExponent < e → 2 ^ 52 ≤ m) (greatest : e ≤ 971) :
    kept (.finite s m e some) = .finite s m e some := by
  rw [leastExponent] at least full
  rw [kept, pack_finite, if_neg (by omega)]
  by_cases long : 2 ^ 52 ≤ m
  · have width : m.log2 = 52 := (Nat.log2_eq_iff some.ne').mpr ⟨long, small⟩
    have field : (BitVec.ofNat 11 (e + 1075).toNat).toNat = (e + 1075).toNat := by
      rw [BitVec.toNat_ofNat]
      omega
    have fraction : (1#1 ++ BitVec.ofNat 52 m).toNat = m := by
      rw [toNat_one_append, BitVec.toNat_ofNat]
      omega
    have fieldSome : BitVec.ofNat 11 (e + 1075).toNat ≠ 0#11 := by
      intro none
      have := congrArg BitVec.toNat none
      rw [field, BitVec.toNat_ofNat] at this
      omega
    have fieldFree : BitVec.ofNat 11 (e + 1075).toNat ≠ -1#11 := by
      intro full
      have := congrArg BitVec.toNat full
      rw [field, show (-1#11 : BitVec 11).toNat = 2047 by decide] at this
      omega
    rw [if_pos width]
    simp only [UnpackedFloat.unpack, unpackExponent_packComponents, unpackMantissa_packComponents,
      unpackSign_packComponents, Sign.ofBitVec_toBitVec]
    rw [if_neg fieldFree, if_neg fieldSome]
    apply finite_congr fraction
    rw [field]
    show ((e + 1075).toNat : Int) - ((1023 : Nat) + (52 : Nat)) = e
    omega
  · have width : m.log2 ≠ 52 := by
      intro width
      apply long
      rw [← width]
      exact Nat.log2_self_le some.ne'
    have short : (BitVec.ofNat 52 m).toNat = m := by
      rw [BitVec.toNat_ofNat]
      omega
    have fractionSome : BitVec.ofNat 52 m ≠ 0#52 := by
      intro none
      have := congrArg BitVec.toNat none
      rw [short, BitVec.toNat_ofNat] at this
      omega
    rw [if_neg width]
    simp only [UnpackedFloat.unpack, unpackExponent_packComponents, unpackMantissa_packComponents,
      unpackSign_packComponents, Sign.ofBitVec_toBitVec]
    rw [if_neg (by decide), if_pos trivial, dif_neg fractionSome]
    apply finite_congr short
    show ((0 : Nat) : Int) - ((1023 : Nat) + (52 : Nat)) + 1 = e
    omega

theorem Carries.isFinite (h : Carries u s z) : u.isFinite = true := by
  cases h <;> rfl

/-- What is packed is there again, or infinite where it is too large. -/
theorem Carries.kept_cases (h : Carries u s z) :
    z < 2 ^ (1024 : Int) ∧ Carries (kept u) s z ∨
      2 ^ (1024 : Int) ≤ z ∧ kept u = .infinity s := by
  cases h with
  | zero =>
    rw [kept_zero]
    exact .inl ⟨by positivity, .zero s⟩
  | finite s some small least full =>
    rename_i m e
    rcases le_or_gt e 971 with fits | large
    · left
      rw [kept_finite some small least full fits]
      refine ⟨?_, .finite s some small least full⟩
      exact (mul_lt_pow small e).trans_le (zpow_two_le (by omega))
    · right
      refine ⟨?_, kept_overflow some (by omega)⟩
      have long := full (by rw [leastExponent]; omega)
      exact (zpow_two_le (by omega)).trans (pow_le_mul long e)

private theorem Carries.finite_of_eq {m' : Nat} {e' : Int} (some : 0 < m') (mantissa : m' = m)
    (exponent : e' = e) (small : m < 2 ^ 53) (least : leastExponent ≤ e)
    (full : leastExponent < e → 2 ^ 52 ≤ m) : Carries (.finite s m' e' some) s (m * 2 ^ e) := by
  subst mantissa exponent
  exact .finite s some small least full

def Magnitude.value (m : Magnitude) : ℚ := m.mantissa * 2 ^ m.exponent

theorem carries_unpack (b : BitVec Format.binary64.numBits)
    (finite : b.toNat % Nat.pow 2 63 < infinityBits) :
    Carries (UnpackedFloat.unpack Format.binary64 b) (Sign.ofBitVec (unpackSign b))
      (Magnitude.ofBits (b.toNat % Nat.pow 2 63)).value := by
  have field := unpackExponent_toNat b
  have fraction := unpackMantissa_toNat b
  change b.toNat % 9223372036854775808 < 9218868437227405312 at finite
  show Carries _ _ (Magnitude.ofBits (b.toNat % 9223372036854775808)).value
  rw [ofBits_eq, Magnitude.value]
  rw [show b.toNat % 9223372036854775808 / 4503599627370496 % 2048 = (unpackExponent b).toNat
      by omega,
    show b.toNat % 9223372036854775808 % 4503599627370496 = (unpackMantissa b).toNat by omega]
  have free : unpackExponent b ≠ -1#11 := by
    intro full
    have top : (unpackExponent b).toNat = 2047 := congrArg BitVec.toNat full
    omega
  have short : (unpackMantissa b).toNat < 4503599627370496 := (unpackMantissa b).isLt
  rw [UnpackedFloat.unpack]
  dsimp only
  rw [if_neg free]
  split
  · rename_i none
    have zero : (unpackExponent b).toNat = 0 := congrArg BitVec.toNat none
    rw [zero, if_pos rfl]
    dsimp only
    split
    · rename_i none
      have zero : (unpackMantissa b).toNat = 0 := congrArg BitVec.toNat none
      rw [zero, Nat.cast_zero, zero_mul]
      exact .zero _
    · have subnormal : ((0 : Nat) : Int) - ((1023 : Nat) + (52 : Nat)) + 1 = leastExponent := rfl
      exact .finite_of_eq _ rfl subnormal (by omega) le_rfl fun high => absurd high (lt_irrefl _)
  · rename_i some
    have nonzero : (unpackExponent b).toNat ≠ 0 := fun zero => some (BitVec.eq_of_toNat_eq zero)
    have normal : ((unpackExponent b).toNat : Int) - ((1023 : Nat) + (52 : Nat)) =
        (unpackExponent b).toNat - 1075 := by omega
    rw [if_neg nonzero]
    dsimp only
    refine .finite_of_eq _ (toNat_one_append _) normal (by omega) ?_ fun _ => Nat.le_add_right _ _
    rw [leastExponent]
    omega

end Packing

section Unpacked

variable {a b : UnpackedFloat} {v w : ℚ}

/-- An unpacked float that is not negative stands for a rational number.  Zero does so with either
sign. -/
def Holds (u : UnpackedFloat) (v : ℚ) : Prop :=
  ∃ s, Carries u s v ∧ (s = .negative → v = 0)

theorem Holds.cases {u : UnpackedFloat} (h : Holds u v) :
    (∃ s, u = .zero s ∧ v = 0) ∨ ∃ (m : Nat) (e : Int) (some : 0 < m),
      u = .finite .positive m e some ∧ v = m * 2 ^ e ∧ leastExponent ≤ e ∧
        (leastExponent < e → 2 ^ 52 ≤ m) := by
  obtain ⟨s, carries, unsigned⟩ := h
  cases carries with
  | zero => exact .inl ⟨s, rfl, rfl⟩
  | finite _ some small least full =>
    rename_i m e
    cases s with
    | negative =>
      have magnitude : (0 : ℚ) < m * 2 ^ e := mul_pos (by exact_mod_cast some) (zpow_two_pos e)
      exact absurd (unsigned rfl) magnitude.ne'
    | positive => exact .inr ⟨m, e, some, rfl, rfl, least, full⟩

theorem Holds.nonneg {u : UnpackedFloat} (h : Holds u v) : 0 ≤ v := by
  obtain ⟨s, -, rfl⟩ | ⟨m, e, some, -, rfl, -⟩ := h.cases
  · exact le_rfl
  · exact mul_nonneg (Nat.cast_nonneg m) (zpow_two_pos e).le

theorem Holds.roundsTo {u : UnpackedFloat} (h : Holds u v) : RoundsTo v v := by
  obtain ⟨s, carries, -⟩ := h
  exact carries.roundsTo

theorem Holds.le_of_roundsTo {u : UnpackedFloat} {y z : ℚ} (h : Holds u v) (rounds : RoundsTo y z)
    (bound : y ≤ v) : z ≤ v := by
  obtain ⟨s, carries, -⟩ := h
  cases carries with
  | zero => exact rounds.nonpos bound
  | finite _ some small least full => exact rounds.le_of_le small least bound

private theorem decreased (m : Nat) {e k : Int} (h : k ≤ e) :
    ((m <<< (e - k).toNat : Nat) : ℚ) * 2 ^ k = m * 2 ^ e := by
  obtain ⟨d, rfl⟩ := Int.le.dest h
  have shift : (k + d - k).toNat = d := by omega
  rw [shift, Nat.shiftLeft_eq, Nat.cast_mul, mul_assoc, ← zpow_two_places]

theorem Holds.add (ha : Holds a v) (hb : Holds b w) :
    ∃ z, RoundsTo (v + w) z ∧ Holds (UnpackedFloat.add Format.binary64 a b) z := by
  obtain ⟨s, rfl, rfl⟩ | ⟨m, e, some, rfl, rfl, -⟩ := ha.cases
  · rw [zero_add]
    obtain ⟨s', carries, unsigned⟩ := hb
    refine ⟨w, carries.roundsTo, ?_⟩
    cases carries with
    | zero =>
      rw [UnpackedFloat.add]
      split
      · exact ⟨s, .zero s, fun _ => rfl⟩
      · exact ⟨.positive, .zero _, fun _ => rfl⟩
    | finite _ some small least full => exact ⟨s', .finite s' some small least full, unsigned⟩
  · obtain ⟨s, rfl, rfl⟩ | ⟨m', e', some', rfl, rfl, -⟩ := hb.cases
    · obtain ⟨s', carries, unsigned⟩ := ha
      rw [add_zero]
      exact ⟨_, carries.roundsTo, s', carries, unsigned⟩
    · have low := decreased m (min_le_left e e')
      have low' := decreased m' (min_le_right e e')
      rw [UnpackedFloat.add]
      simp only [decreaseExponent, Sign.apply]
      generalize m <<< (e - min e e').toNat = n at *
      generalize m' <<< (e' - min e e').toNat = n' at *
      obtain ⟨z, rounds, carries⟩ := normalize_carries (n + n' : Int) (min e e')
      rw [if_neg (by omega)] at carries
      have sum : ((n + n' : Int).natAbs : ℚ) * 2 ^ min e e' = m * 2 ^ e + m' * 2 ^ e' := by
        rw [← low, ← low', ← add_mul]
        norm_cast
      rw [sum] at rounds
      exact ⟨z, rounds, .positive, carries, by rintro ⟨⟩⟩

theorem Holds.sub (ha : Holds a v) (hb : Holds b w) :
    ∃ s y z, y ≤ max v w ∧ RoundsTo y z ∧ Carries (UnpackedFloat.sub Format.binary64 a b) s z := by
  obtain ⟨s, rfl, rfl⟩ | ⟨m, e, some, rfl, rfl, -⟩ := ha.cases
  · obtain ⟨s', carries, -⟩ := hb
    cases carries with
    | zero =>
      obtain ⟨t, zero⟩ : ∃ t, UnpackedFloat.sub Format.binary64 (.zero s) (.zero s') = .zero t := by
        rw [UnpackedFloat.sub]
        split
        · exact ⟨s, rfl⟩
        · exact ⟨.positive, rfl⟩
      rw [zero]
      exact ⟨t, 0, 0, le_max_left _ _, (Carries.zero t).roundsTo, .zero t⟩
    | finite _ some small least full =>
      have opposite := Carries.finite (-s') some small least full
      exact ⟨-s', _, _, le_max_right _ _, opposite.roundsTo, opposite⟩
  · obtain ⟨s, rfl, rfl⟩ | ⟨m', e', some', rfl, rfl, -⟩ := hb.cases
    · obtain ⟨s', carries, -⟩ := ha
      exact ⟨s', _, _, le_max_left _ _, carries.roundsTo, carries⟩
    · have low := decreased m (min_le_left e e')
      have low' := decreased m' (min_le_right e e')
      rw [UnpackedFloat.sub]
      simp only [decreaseExponent, Sign.apply]
      generalize m <<< (e - min e e').toNat = n at *
      generalize m' <<< (e' - min e e').toNat = n' at *
      obtain ⟨z, rounds, carries⟩ := normalize_carries (n - n' : Int) (min e e')
      refine ⟨_, _, z, ?_, rounds, carries⟩
      have place := (zpow_two_pos (min e e')).le
      have larger : (n - n' : Int).natAbs ≤ max n n' := by omega
      rw [← low, ← low', ← max_mul_of_nonneg _ _ place]
      exact mul_le_mul_of_nonneg_right (by exact_mod_cast larger) place

/-- A quotient is worked out to as many bits as it is rounded to. -/
private theorem wide_quotient {m m' : Nat} {e e' k : Int} (some : m ≠ 0) (some' : 0 < m')
    (target : min (e - e')
      (Format.binary64.targetExponent (totalExponent m e - totalExponent m' e')) = k) :
    52 ≤ ((m <<< (e - e' - k).toNat) / m').log2 ∨ k ≤ leastExponent := by
  rcases le_or_gt k leastExponent with low | high
  · exact .inr low
  left
  rw [targetExponent_eq_max, totalExponent, totalExponent] at target
  generalize shift : (e - e' - k).toNat = n
  have exponents : 52 + (m'.log2 + 1) ≤ m.log2 + n := by omega
  have large : 2 ^ 52 ≤ (m <<< n) / m' := by
    rw [Nat.le_div_iff_mul_le some', Nat.shiftLeft_eq]
    calc 2 ^ 52 * m' ≤ 2 ^ 52 * 2 ^ (m'.log2 + 1) := Nat.mul_le_mul_left _ Nat.lt_log2_self.le
      _ = 2 ^ (52 + (m'.log2 + 1)) := (pow_add _ _ _).symm
      _ ≤ 2 ^ (m.log2 + n) := Nat.pow_le_pow_right (by norm_num) exponents
      _ = 2 ^ m.log2 * 2 ^ n := pow_add _ _ _
      _ ≤ m * 2 ^ n := Nat.mul_le_mul_right _ (Nat.log2_self_le some)
  exact (Nat.le_log2 (by omega)).mpr large

theorem Holds.div (ha : Holds a v) (hb : Holds b w) (positive : 0 < w) :
    ∃ z, RoundsTo (v / w) z ∧ Holds (UnpackedFloat.div Format.binary64 a b) z := by
  obtain ⟨s, rfl, rfl⟩ | ⟨m', e', some', rfl, rfl, -⟩ := hb.cases
  · exact absurd positive (lt_irrefl 0)
  obtain ⟨s, rfl, rfl⟩ | ⟨m, e, some, rfl, rfl, -⟩ := ha.cases
  · rw [zero_div]
    exact ⟨0, (Carries.zero s).roundsTo, _, .zero _, fun _ => rfl⟩
  · rw [UnpackedFloat.div]
    simp only [divCore]
    generalize target : min (e - e') _ = k
    have wide := wide_quotient some.ne' some' target
    have low := decreased m (show k ≤ e - e' by omega)
    generalize m <<< (e - e' - k).toNat = n at *
    obtain ⟨z, rounds, carries⟩ :=
      roundWithAccuracy_carries .positive (covers_quotient n some') wide
    have quotient : (n / m' : ℚ) * 2 ^ k = m * 2 ^ e / (m' * 2 ^ e') := by
      rw [div_mul_eq_mul_div, low, zpow_sub₀ (by norm_num)]
      field_simp
    rw [quotient] at rounds
    exact ⟨z, rounds, .positive, carries, by rintro ⟨⟩⟩

theorem Holds.kept_cases {u : UnpackedFloat} (h : Holds u v) :
    v < 2 ^ (1024 : Int) ∧ Holds (kept u) v ∨
      2 ^ (1024 : Int) ≤ v ∧ kept u = .infinity .positive := by
  obtain ⟨s, carries, unsigned⟩ := h
  rcases carries.kept_cases with ⟨fits, again⟩ | ⟨large, overflow⟩
  · exact .inl ⟨fits, s, again, unsigned⟩
  · cases s with
    | negative =>
      rw [unsigned rfl] at large
      exact absurd large (not_le_of_gt (zpow_two_pos 1024))
    | positive => exact .inr ⟨large, overflow⟩

end Unpacked

section Floats

variable {x y : Float} {v w : ℚ}

def parts (x : Float) : UnpackedFloat :=
  UnpackedFloat.unpack Format.binary64 x.toBits.toBitVec

/-- A float that is not negative stands for a rational number. -/
structure Stands (x : Float) (v : ℚ) : Prop where
  holds : Holds (parts x) v
  small : v < 2 ^ (1024 : Int)

/-- The float that sums and quotients end in that are too large. -/
def IsInfinite (x : Float) : Prop := parts x = .infinity .positive

theorem parts_add (x y : Float) :
    parts (x + y) = kept (UnpackedFloat.add Format.binary64 (parts x) (parts y)) := rfl

theorem parts_sub (x y : Float) :
    parts (x - y) = kept (UnpackedFloat.sub Format.binary64 (parts x) (parts y)) := rfl

theorem parts_div (x y : Float) :
    parts (x / y) = kept (UnpackedFloat.div Format.binary64 (parts x) (parts y)) := rfl

theorem isFinite_eq (x : Float) : x.isFinite = (parts x).isFinite := rfl

theorem parts_zero : parts 0.0 = .zero .positive := by
  rfl

theorem kept_parts (x : Float) : kept (parts x) = parts x :=
  congrArg (UnpackedFloat.unpack Format.binary64) (pack_unpack_of_valid x.toModel.valid)

theorem Carries.small {s : Sign} (h : Carries (parts x) s v) : v < 2 ^ (1024 : Int) := by
  rcases h.kept_cases with ⟨small, -⟩ | ⟨-, overflow⟩
  · exact small
  · have finite := h.isFinite
    rw [← kept_parts, overflow] at finite
    cases finite

theorem lt_iff (x y : Float) : x < y ↔ (parts x).lt (parts y) = true :=
  decide_eq_true_iff

theorem Stands.isFinite (h : Stands x v) : x.isFinite = true := by
  obtain ⟨s, carries, -⟩ := h.holds
  exact carries.isFinite

theorem IsInfinite.isFinite (h : IsInfinite x) : x.isFinite = false := by
  rw [isFinite_eq, h]
  rfl

theorem exists_stands (finite : x.isFinite = true) (notNegative : ¬ x < 0.0) : ∃ v, Stands x v := by
  have carries : Carries (parts x) _ _ :=
    carries_unpack x.toBits.toBitVec (bits_lt_of_isFinite finite)
  generalize Sign.ofBitVec _ = s at carries
  generalize Magnitude.value _ = v at carries
  refine ⟨v, ⟨s, carries, ?_⟩, carries.small⟩
  rintro rfl
  rw [lt_iff, parts_zero] at notNegative
  generalize parts x = u at carries notNegative
  cases carries with
  | zero => rfl
  | finite => exact absurd rfl notNegative

theorem stands_zero : Stands 0.0 0 :=
  ⟨⟨.positive, parts_zero ▸ .zero .positive, fun _ => rfl⟩, zpow_two_pos 1024⟩

theorem Stands.pos (h : Stands x v) (positive : x > 0.0) : 0 < v := by
  obtain ⟨s, zero, -⟩ | ⟨m, e, some, -, rfl, -⟩ := h.holds.cases
  · rw [GT.gt, lt_iff, parts_zero, zero] at positive
    cases positive
  · exact mul_pos (by exact_mod_cast some) (zpow_two_pos e)

theorem Stands.add (hx : Stands x v) (hy : Stands y w) : ∃ z, RoundsTo (v + w) z ∧
    (z < 2 ^ (1024 : Int) ∧ Stands (x + y) z ∨ 2 ^ (1024 : Int) ≤ z ∧ IsInfinite (x + y)) := by
  obtain ⟨z, rounds, holds⟩ := hx.holds.add hy.holds
  exact ⟨z, rounds, holds.kept_cases.imp (fun h => ⟨h.1, h.2, h.1⟩) id⟩

theorem Stands.div (hx : Stands x v) (hy : Stands y w) (positive : 0 < w) : ∃ z,
    RoundsTo (v / w) z ∧
    (z < 2 ^ (1024 : Int) ∧ Stands (x / y) z ∨ 2 ^ (1024 : Int) ≤ z ∧ IsInfinite (x / y)) := by
  obtain ⟨z, rounds, holds⟩ := hx.holds.div hy.holds positive
  exact ⟨z, rounds, holds.kept_cases.imp (fun h => ⟨h.1, h.2, h.1⟩) id⟩

theorem Stands.isFinite_sub (hx : Stands x v) (hy : Stands y w) : (x - y).isFinite = true := by
  obtain ⟨s, u, z, bound, rounds, carries⟩ := hx.holds.sub hy.holds
  have small : z < 2 ^ (1024 : Int) := by
    rcases le_max_iff.mp bound with le | le
    · exact (hx.holds.le_of_roundsTo rounds le).trans_lt hx.small
    · exact (hy.holds.le_of_roundsTo rounds le).trans_lt hy.small
  rw [isFinite_eq, parts_sub]
  rcases carries.kept_cases with ⟨-, again⟩ | ⟨large, -⟩
  · exact again.isFinite
  · exact absurd small (not_lt_of_ge large)

theorem IsInfinite.add (hx : IsInfinite x) (hy : Stands y w) : IsInfinite (x + y) := by
  rw [IsInfinite, parts_add, hx]
  obtain ⟨s, same, -⟩ | ⟨m, e, some, same, -⟩ := hy.holds.cases
  all_goals rw [same]
  all_goals exact kept_infinity .positive

theorem IsInfinite.div (hx : IsInfinite x) (hy : Stands y w) (positive : 0 < w) :
    IsInfinite (x / y) := by
  rw [IsInfinite, parts_div, hx]
  obtain ⟨s, -, rfl⟩ | ⟨m, e, some, same, -⟩ := hy.holds.cases
  · exact absurd positive (lt_irrefl 0)
  · rw [same]
    exact kept_infinity .positive

end Floats
end ToolTrial.Number
