import ToolTrial.Proofs.Nearest

/-!
The shortest decimal of a float reads back as that float.  Any digits that are found have been read
back on the way, and where none are found all digits of the float are taken; zeros at the end are
left out without a change of the value.
-/

set_option autoImplicit false
set_option relaxedAutoImplicit false

namespace ToolTrial.Number.Decimal

section Values

private theorem ten_pos (k : Nat) : 0 < Nat.pow 10 k := Nat.pow_pos (by decide)

theorem den_pos (d : Decimal) : 0 < d.den := ten_pos _

private theorem exists_toFloat_eq (d : Decimal) :
    ∃ num den, ∀ negative, toFloat negative d = nearest negative num den := by
  unfold toFloat
  split
  · exact ⟨0, 1, fun _ => rfl⟩
  · split
    · exact ⟨Nat.pow 10 400, 1, fun _ => rfl⟩
    · exact ⟨d.num, d.den, fun _ => rfl⟩

theorem toFloat_isNegative {d : Decimal} {x : Float}
    (reads : (toFloat false d).toBits.toNat = x.toBits.toNat % Nat.pow 2 63) :
    toFloat (isNegative x) d = x := by
  obtain ⟨num, den, quotient⟩ := exists_toFloat_eq d
  rw [quotient, toBits_nearest_false] at reads
  rw [quotient]
  exact nearest_isNegative reads

theorem toFloat_congr (negative : Bool) {d d' : Decimal} (some : d.digits ≠ 0)
    (some' : d'.digits ≠ 0) (places : d.places = d'.places)
    (value : d.num * d'.den = d'.num * d.den) :
    toFloat negative d = toFloat negative d' := by
  unfold toFloat
  simp only [some, some', places, nearest_congr negative (den_pos d) (den_pos d') value]

theorem length_toDigits_mul_ten {n : Nat} (some : n ≠ 0) :
    (Nat.toDigits 10 (n * 10)).length = (Nat.toDigits 10 n).length + 1 := by
  rw [Nat.toDigits_of_base_le (by decide) (by omega), Nat.mul_div_cancel n (by decide),
    List.length_append, List.length_singleton]

theorem toFloat_mul_ten (negative : Bool) {n : Nat} (some : n ≠ 0) (e : Int) :
    toFloat negative ⟨n * 10, e⟩ = toFloat negative ⟨n, e + 1⟩ := by
  refine toFloat_congr negative (Nat.mul_ne_zero some (by decide)) some ?_ ?_
  · simp only [places, length_toDigits_mul_ten some]
    omega
  · show n * 10 * 10 ^ e.toNat * 10 ^ (-(e + 1)).toNat = n * 10 ^ (e + 1).toNat * 10 ^ (-e).toNat
    have exponents : 1 + e.toNat + (-(e + 1)).toNat = (e + 1).toNat + (-e).toNat := by omega
    calc n * 10 * 10 ^ e.toNat * 10 ^ (-(e + 1)).toNat
        = n * 10 ^ (1 + e.toNat + (-(e + 1)).toNat) := by ring
      _ = n * 10 ^ (e + 1).toNat * 10 ^ (-e).toNat := by rw [exponents]; ring

theorem toFloat_mul_pow (negative : Bool) {n : Nat} (some : n ≠ 0) (k : Nat) (e : Int) :
    toFloat negative ⟨n * 10 ^ k, e⟩ = toFloat negative ⟨n, e + k⟩ := by
  induction k generalizing e with
  | zero => simp
  | succ k ih =>
    have digits : n * 10 ^ k ≠ 0 := Nat.mul_ne_zero some (Nat.ne_of_gt (ten_pos k))
    rw [Nat.pow_succ, ← Nat.mul_assoc, toFloat_mul_ten negative digits, ih]
    congr 2
    omega

theorem toFloat_stripZeros (negative : Bool) (d : Decimal) :
    toFloat negative d.stripZeros = toFloat negative d := by
  induction d using stripZeros.induct with
  | case1 d zeros ih =>
    have whole : d.digits / 10 * 10 = d.digits :=
      Nat.div_mul_cancel (Nat.dvd_of_mod_eq_zero zeros.2)
    rw [stripZeros, dif_pos zeros, ih, ← toFloat_mul_ten negative (by omega), whole]
  | case2 d done => rw [stripZeros, dif_neg done]

theorem digits_stripZeros {d : Decimal} (some : d.digits ≠ 0) : d.stripZeros.digits ≠ 0 := by
  induction d using stripZeros.induct with
  | case1 d zeros ih =>
    rw [stripZeros, dif_pos zeros]
    exact ih (by show d.digits / 10 ≠ 0; omega)
  | case2 d done => rwa [stripZeros, dif_neg done]

end Values

section Exact

variable {m : Magnitude}

private theorem exact_value (m : Magnitude) :
    (exact m).num * m.den = m.num * (exact m).den := by
  have noPower : (min 0 m.exponent).toNat = 0 := by omega
  have powers : (-min 0 m.exponent).toNat = (-m.exponent).toNat := by omega
  show m.mantissa * 2 ^ m.exponent.toNat * 5 ^ (-m.exponent).toNat *
      10 ^ (min 0 m.exponent).toNat * 2 ^ (-m.exponent).toNat =
    m.mantissa * 2 ^ m.exponent.toNat * 10 ^ (-min 0 m.exponent).toNat
  have tens : 10 ^ (-m.exponent).toNat = 5 ^ (-m.exponent).toNat * 2 ^ (-m.exponent).toNat :=
    Nat.mul_pow 5 2 _
  rw [noPower, powers, tens]
  ring

private theorem length_le {n k : Nat} (some : 0 < k) (small : n < 10 ^ k) :
    (Nat.toDigits 10 n).length ≤ k :=
  (Nat.length_toDigits_le_iff (by decide) some).mpr small

private theorem lt_length {n k : Nat} (some : 0 < k) (large : 10 ^ k ≤ n) :
    k < (Nat.toDigits 10 n).length := by
  by_contra short
  exact Nat.not_lt.mpr large
    ((Nat.length_toDigits_le_iff (by decide) some).mp (Nat.not_lt.mp short))

private theorem ten_pow_le {n k : Nat} (halvings : 2 ^ n ≤ 5 ^ k) : 10 ^ n ≤ 5 ^ (k + n) := by
  calc 10 ^ n = 2 ^ n * 5 ^ n := Nat.mul_pow 2 5 n
    _ ≤ 5 ^ k * 5 ^ n := Nat.mul_le_mul_right _ halvings
    _ = 5 ^ (k + n) := (Nat.pow_add 5 k n).symm

/-- No digits of a float lie so far out that they would not be looked at. -/
private theorem places_exact (canonical : Canonical m) (some : m.mantissa ≠ 0) :
    -400 ≤ (exact m).places ∧ (exact m).places ≤ 400 := by
  obtain ⟨least, greatest, small, -⟩ := canonical
  change m.mantissa < 2 ^ 53 at small
  rw [leastExponent] at least
  have digits : (exact m).digits = m.mantissa * 2 ^ m.exponent.toNat * 5 ^ (-m.exponent).toNat :=
    rfl
  have exponent : (exact m).exponent = min 0 m.exponent := rfl
  rw [places, digits, exponent]
  by_cases fraction : m.exponent < 0
  · obtain ⟨k, below⟩ : ∃ k : Nat, m.exponent = -(k : Int) := ⟨m.exponent.natAbs, by omega⟩
    have noPower : m.exponent.toNat = 0 := by omega
    have power : (-m.exponent).toNat = k := by omega
    rw [noPower, power, Nat.pow_zero, Nat.mul_one]
    constructor
    · -- a thousand halvings are made up for by the fives that go with them
      by_cases far : 401 < k
      · have halvings : 2 ^ (k - 401) ≤ 5 ^ 401 :=
          (Nat.pow_le_pow_right (by decide) (by omega : k - 401 ≤ 673)).trans (by decide +kernel)
        have fives : 10 ^ (k - 401) ≤ 5 ^ k := by
          have := ten_pow_le halvings
          rwa [Nat.add_sub_cancel' (by omega)] at this
        have enough : 10 ^ (k - 401) ≤ m.mantissa * 5 ^ k :=
          fives.trans (Nat.le_mul_of_pos_left _ (Nat.pos_of_ne_zero some))
        have := lt_length (by omega) enough
        omega
      · have : 0 < (Nat.toDigits 10 (m.mantissa * 5 ^ k)).length := Nat.length_toDigits_pos
        omega
    · have short : m.mantissa * 5 ^ k < 10 ^ (16 + k) := by
        calc m.mantissa * 5 ^ k < 10 ^ 16 * 5 ^ k :=
              Nat.mul_lt_mul_of_pos_right (Nat.lt_trans small (by norm_num))
                (Nat.pow_pos (by decide))
          _ ≤ 10 ^ 16 * 10 ^ k := Nat.mul_le_mul_left _ (Nat.pow_le_pow_left (by decide) k)
          _ = 10 ^ (16 + k) := (Nat.pow_add 10 16 k).symm
      have := length_le (by omega) short
      omega
  · have noPower : (-m.exponent).toNat = 0 := by omega
    rw [noPower, Nat.pow_zero, Nat.mul_one]
    have short : m.mantissa * 2 ^ m.exponent.toNat < 10 ^ 400 := by
      calc m.mantissa * 2 ^ m.exponent.toNat < 2 ^ 53 * 2 ^ m.exponent.toNat :=
            Nat.mul_lt_mul_of_pos_right small (Nat.two_pow_pos _)
        _ ≤ 2 ^ 53 * 2 ^ 971 :=
            Nat.mul_le_mul_left _ (Nat.pow_le_pow_right (by decide) (by omega))
        _ ≤ 10 ^ 400 := by decide +kernel
    have := length_le (by decide) short
    omega

private theorem digits_exact (some : m.mantissa ≠ 0) : (exact m).digits ≠ 0 :=
  Nat.mul_ne_zero (Nat.mul_ne_zero some (Nat.ne_of_gt (Nat.two_pow_pos _)))
    (Nat.ne_of_gt (Nat.pow_pos (by decide)))

private theorem reads_exact {x : Float} (finite : x.isFinite = true)
    (some : (magnitude x).mantissa ≠ 0) :
    (toFloat false (exact (magnitude x))).toBits.toNat = x.toBits.toNat % Nat.pow 2 63 := by
  have canonical : Canonical (magnitude x) := canonical_ofBits (bits_lt_of_isFinite finite)
  obtain ⟨low, high⟩ := places_exact canonical some
  have inside : ¬ ((exact (magnitude x)).digits = 0 ∨ (exact (magnitude x)).places < -400) := by
    rw [not_or]
    exact ⟨digits_exact some, Int.not_lt.mpr low⟩
  rw [toFloat, if_neg inside, if_neg (Int.not_lt.mpr high), toBits_nearest_false]
  exact quotientBits_magnitude finite (den_pos _) (exact_value _)

end Exact

section Search

variable {tie : Tie} {reads : Decimal → Bool} {num den : Nat} {step : Int} {d : Decimal}

private theorem reads_of_onGrid? (found : onGrid? tie reads num den step = some d) :
    reads d = true := by
  unfold onGrid? at found
  extract_lets scaledNum scaledDen below above nearer farther at found
  split at found
  · rename_i good
    exact Option.some.inj found ▸ good
  · split at found
    · rename_i good
      exact Option.some.inj found ▸ good
    · cases found

/-- The shortest decimal of a finite float other than zero has digits, and reads back as the
float. -/
theorem toFloat_shortest (tie : Tie) {x : Float} (finite : x.isFinite = true)
    (some : (magnitude x).mantissa ≠ 0) :
    (shortest tie x).digits ≠ 0 ∧ toFloat (isNegative x) (shortest tie x) = x := by
  have nonzero : x.toBits.toNat % Nat.pow 2 63 ≠ 0 := by
    intro none
    rw [magnitude, none] at some
    exact some rfl
  obtain ⟨d, result, reads⟩ : ∃ d : Decimal, shortest tie x = d.stripZeros ∧
      (toFloat false d).toBits.toNat = x.toBits.toNat % Nat.pow 2 63 := by
    unfold shortest
    extract_lets m reads top found
    refine ⟨found.getD (exact m), rfl, ?_⟩
    cases search : found with
    | none => exact reads_exact finite some
    | some d =>
      obtain ⟨n, -, here⟩ := List.exists_of_findSome?_eq_some search
      exact eq_of_beq (reads_of_onGrid? here)
  have digits : d.digits ≠ 0 := by
    intro none
    have zero : toFloat false d = nearest false 0 1 := if_pos (Or.inl none)
    rw [zero, toBits_nearest_false] at reads
    exact nonzero (reads.symm.trans rfl)
  rw [result]
  exact ⟨digits_stripZeros digits, (toFloat_stripZeros _ d).trans (toFloat_isNegative reads)⟩

end Search
end ToolTrial.Number.Decimal
