import ToolTrial.Proofs.Aggregation
import ToolTrial.Proofs.FloatNearest

/-!
Which averages and rates are finite.  Counts of 64 bits are so small that their sum never overflows,
however many of them there are; the sum of durations may, and then their average is infinite too.
-/

set_option autoImplicit false
set_option relaxedAutoImplicit false

namespace ToolTrial

namespace Number

section Ranges

/-- A float stands for zero, or for a number between two powers of two. -/
def InRange (low high : Int) (x : Float) : Prop :=
  ∃ v : ℚ, Stands x v ∧ v ≤ 2 ^ high ∧ (v = 0 ∨ 2 ^ low ≤ v)

variable {x y : Float} {low high : Int} {n : Nat}

theorem InRange.isFinite (h : InRange low high x) : x.isFinite = true := by
  obtain ⟨v, stands, -⟩ := h
  exact stands.isFinite

theorem inRange_zero (low high : Int) : InRange low high 0.0 :=
  ⟨0, stands_zero, (zpow_two_pos high).le, .inl rfl⟩

private theorem inRange_of_rounds {v z : ℚ} (rounds : RoundsTo v z) (stands : Stands x z)
    (least : leastExponent ≤ low) (least' : leastExponent ≤ high) (upper : v ≤ 2 ^ high)
    (lower : v = 0 ∨ 2 ^ low ≤ v) : InRange low high x := by
  refine ⟨z, stands, rounds.le_pow least' upper, ?_⟩
  rcases lower with rfl | large
  · exact .inl rounds.eq_zero
  · exact .inr (rounds.pow_le least large)

theorem exists_stands_count (small : n < UInt64.size) : ∃ v : ℚ, Stands (ofNat n) v ∧
    v ≤ 2 ^ (64 : Int) ∧ (n = 0 ∧ v = 0 ∨ n ≠ 0 ∧ 1 ≤ v) := by
  obtain ⟨z, rounds, stands⟩ := exists_stands_ofNat small
  have upper : (n : ℚ) ≤ 2 ^ (64 : Int) := by
    have bits : (n : ℚ) ≤ (2 ^ 64 : Nat) := by exact_mod_cast small.le
    exact bits.trans_eq (by norm_num)
  refine ⟨z, stands, rounds.le_pow (by decide) upper, ?_⟩
  by_cases none : n = 0
  · subst none
    rw [Nat.cast_zero] at rounds
    exact .inl ⟨rfl, rounds.eq_zero⟩
  · have one : (2 : ℚ) ^ (0 : Int) ≤ n := by
      rw [zpow_zero]
      exact_mod_cast Nat.pos_of_ne_zero none
    exact .inr ⟨none, (zpow_zero (2 : ℚ)).ge.trans (rounds.pow_le (by decide) one)⟩

theorem inRange_ofNat (small : n < UInt64.size) : InRange 0 64 (ofNat n) := by
  obtain ⟨v, stands, upper, ⟨-, zero⟩ | ⟨-, one⟩⟩ := exists_stands_count small
  · exact ⟨v, stands, upper, .inl zero⟩
  · exact ⟨v, stands, upper, .inr ((zpow_zero (2 : ℚ)).le.trans one)⟩

/-- The sum of counts stays where adding one more is lost in rounding. -/
theorem InRange.add_count (hx : InRange 0 118 x) (hy : InRange 0 64 y) :
    InRange 0 118 (x + y) := by
  obtain ⟨v, standsX, upperX, lowerX⟩ := hx
  obtain ⟨w, standsY, upperY, lowerY⟩ := hy
  obtain ⟨z, rounds, sum⟩ := standsX.add standsY
  have bound : z ≤ 2 ^ (118 : Int) := rounds.le_of_absorbed (by decide) (add_le_add upperX upperY)
  rcases sum with ⟨-, stands⟩ | ⟨large, -⟩
  · refine ⟨z, stands, bound, ?_⟩
    have natural := standsY.holds.nonneg
    rcases lowerX with rfl | one
    · rcases lowerY with rfl | one
      · rw [add_zero] at rounds
        exact .inl rounds.eq_zero
      · exact .inr (rounds.pow_le (by decide) (by linarith))
    · exact .inr (rounds.pow_le (by decide) (by linarith))
  · exact absurd (large.trans bound) (not_le_of_gt (zpow_two_lt (by decide)))

theorem inRange_foldl (counts : List Nat) (small : ∀ n ∈ counts, n < UInt64.size)
    (before : InRange 0 118 x) : InRange 0 118 ((counts.map ofNat).foldl (· + ·) x) := by
  -- along the counts, from any sum of counts before them
  induction counts generalizing x with
  | nil => exact before
  | cons n rest ih =>
    obtain ⟨first, others⟩ := List.forall_mem_cons.mp small
    exact ih others (before.add_count (inRange_ofNat first))

/-- What is divided by a count does not grow, so it does not overflow. -/
theorem Stands.div_count {v : ℚ} (h : Stands x v) (some : n ≠ 0) (small : n < UInt64.size) :
    ∃ w z : ℚ, 1 ≤ w ∧ w ≤ 2 ^ (64 : Int) ∧ RoundsTo (v / w) z ∧ Stands (x / ofNat n) z := by
  obtain ⟨w, divides, most, ⟨none, -⟩ | ⟨-, one⟩⟩ := exists_stands_count small
  · exact absurd none some
  obtain ⟨z, rounds, ⟨-, quotient⟩ | ⟨overflow, -⟩⟩ := h.div divides (zero_lt_one.trans_le one)
  · exact ⟨w, z, one, most, rounds, quotient⟩
  · have bound := h.holds.le_of_roundsTo rounds (div_le_self h.holds.nonneg one)
    exact absurd (overflow.trans bound) (not_le_of_gt h.small)

theorem InRange.div_count (h : InRange low high x) (least : leastExponent + 64 ≤ low)
    (order : low ≤ high) (some : n ≠ 0) (small : n < UInt64.size) :
    InRange (low - 64) high (x / ofNat n) := by
  obtain ⟨v, stands, upper, lower⟩ := h
  obtain ⟨w, z, one, most, rounds, quotient⟩ := stands.div_count some small
  have positive : 0 < w := zero_lt_one.trans_le one
  have shrinks : v / w ≤ v := div_le_self stands.holds.nonneg one
  refine inRange_of_rounds rounds quotient (by omega) (by omega) (shrinks.trans upper) ?_
  rcases lower with rfl | large
  · exact .inl (zero_div w)
  · right
    rw [zpow_sub₀ two_ne_zero]
    exact div_le_div₀ stands.holds.nonneg large positive most

theorem InRange.isFinite_div {low' high' : Int} (hx : InRange low high x)
    (hy : InRange low' high' y) (positive : y > 0.0) (least : leastExponent ≤ high - low')
    (fits : high - low' < 1024) : (x / y).isFinite = true := by
  obtain ⟨v, standsX, upper, -⟩ := hx
  obtain ⟨w, standsY, -, lower⟩ := hy
  have some : 0 < w := standsY.pos positive
  have large := lower.resolve_left some.ne'
  obtain ⟨z, rounds, quotient⟩ := standsX.div standsY some
  have bound : z ≤ 2 ^ (high - low') := by
    apply rounds.le_pow least
    rw [zpow_sub₀ two_ne_zero]
    exact div_le_div₀ (zpow_two_pos high).le upper (zpow_two_pos low') large
  rcases quotient with ⟨-, whole⟩ | ⟨overflow, -⟩
  · exact whole.isFinite
  · exact absurd (overflow.trans bound) (not_le_of_gt (zpow_two_lt fits))

theorem InRange.isFinite_sub {low' high' : Int} (hx : InRange low high x)
    (hy : InRange low' high' y) : (x - y).isFinite = true := by
  obtain ⟨v, standsX, -⟩ := hx
  obtain ⟨w, standsY, -⟩ := hy
  exact standsX.isFinite_sub standsY

end Ranges

section Durations

/-- A float that a sum of durations may be: it is not negative, and it may be infinite. -/
def IsTotal (x : Float) : Prop := (∃ v, Stands x v) ∨ IsInfinite x

variable {x : Float}

theorem IsTotal.add {y : Float} {w : ℚ} (hx : IsTotal x) (hy : Stands y w) : IsTotal (x + y) := by
  rcases hx with ⟨v, stands⟩ | infinite
  · obtain ⟨z, -, ⟨-, sum⟩ | ⟨-, overflow⟩⟩ := stands.add hy
    · exact .inl ⟨z, sum⟩
    · exact .inr overflow
  · exact .inr (infinite.add hy)

theorem isTotal_foldl (durations : List Float)
    (usable : ∀ d ∈ durations, d.isFinite = true ∧ ¬ d < 0.0) (before : IsTotal x) :
    IsTotal (durations.foldl (· + ·) x) := by
  induction durations generalizing x with
  | nil => exact before
  | cons d rest ih =>
    obtain ⟨⟨finite, notNegative⟩, others⟩ := List.forall_mem_cons.mp usable
    obtain ⟨w, stands⟩ := exists_stands finite notNegative
    exact ih others (before.add stands)

theorem IsTotal.isFinite_div_count {n : Nat} (h : IsTotal x) (some : n ≠ 0)
    (small : n < UInt64.size) : (x / ofNat n).isFinite = x.isFinite := by
  rcases h with ⟨v, stands⟩ | infinite
  · obtain ⟨w, z, -, -, -, quotient⟩ := stands.div_count some small
    rw [stands.isFinite, quotient.isFinite]
  · obtain ⟨w, divides, -, ⟨none, -⟩ | ⟨-, one⟩⟩ := exists_stands_count small
    · exact absurd none some
    · rw [infinite.isFinite, (infinite.div divides (zero_lt_one.trans_le one)).isFinite]

end Durations
end Number

def Run.totalDuration (runs : List Run) : Float :=
  (runs.map (·.durationSeconds)).foldl (· + ·) 0.0

/-- A run with numbers as loaded runs have them. -/
structure Run.Measured (r : Run) : Prop where
  isFinite : r.durationSeconds.isFinite = true
  notNegative : ¬ r.durationSeconds < 0.0
  input : ∀ n ∈ r.tokenUsage.bind (·.input), n < UInt64.size
  output : ∀ n ∈ r.tokenUsage.bind (·.output), n < UInt64.size
  total : ∀ n ∈ r.tokenUsage.bind (·.total), n < UInt64.size

theorem Run.Measured.effectiveTotal {r : Run} (h : r.Measured) :
    ∀ n ∈ r.tokenUsage.bind (·.effectiveTotal), n < UInt64.size := by
  intro n given
  obtain ⟨usage, used, made⟩ := Option.bind_eq_some_iff.mp given
  have reported := h.total
  rw [used, Option.bind_some] at reported
  obtain ⟨input, output, total⟩ := usage
  rw [TokenUsage.effectiveTotal] at made
  split at made
  · rename_i total' whole
    exact reported n (whole.trans made)
  · split at made
    · rename_i below
      cases made
      exact below
    · cases made
  · cases made

namespace ConditionSummary

open Number

theorem inRange_rate {count total : Nat} (small : count < UInt64.size) (few : total < UInt64.size) :
    InRange (-64) 64 (rate count total) := by
  rw [rate]
  split
  · exact inRange_zero _ _
  · rename_i some
    exact (inRange_ofNat small).div_count (by decide) (by decide) some few

theorem eq_of_mem_mean {values : List Float} {x : Float} (h : x ∈ mean values) :
    values.length ≠ 0 ∧ values.foldl (· + ·) 0.0 / ofNat values.length = x := by
  cases values with
  | nil => cases h
  | cons d rest => exact ⟨Nat.succ_ne_zero _, Option.some.inj h⟩

theorem inRange_mean {counts : List Nat} (small : ∀ n ∈ counts, n < UInt64.size)
    (few : counts.length < UInt64.size) :
    ∀ x ∈ mean (counts.map ofNat), InRange (-64) 118 x := by
  intro x worked
  obtain ⟨some, rfl⟩ := eq_of_mem_mean worked
  rw [List.length_map] at some ⊢
  have sum := inRange_foldl counts small (inRange_zero 0 118)
  exact sum.div_count (by decide) (by decide) some few

theorem inRange_meanCount {count : Run → Option Nat} {runs : List Run}
    (small : ∀ r ∈ runs, ∀ n ∈ count r, n < UInt64.size) (few : runs.length < UInt64.size) :
    ∀ x ∈ meanCount count runs, InRange (-64) 118 x := by
  apply inRange_mean
  · intro n listed
    obtain ⟨r, member, given⟩ := List.mem_filterMap.mp listed
    exact small r member n given
  · exact (List.length_filterMap_le _ _).trans_lt few

theorem inRange_mean_scores {runs : List Run} (few : runs.length < UInt64.size) :
    ∀ x ∈ mean ((scores runs).map ofInt), InRange (-64) 118 x := by
  have bounds (score : Int) (counted : score ∈ scores runs) : 1 ≤ score ∧ score ≤ 5 := by
    have valid := (List.mem_filter.mp counted).2
    rwa [Run.isScore, Bool.and_eq_true, decide_eq_true_iff, decide_eq_true_iff] at valid
  have natural : (scores runs).map ofInt = ((scores runs).map Int.natAbs).map ofNat := by
    rw [List.map_map]
    refine List.map_congr_left fun score counted => ?_
    have positive : ¬ score < 0 := by
      have := bounds score counted
      omega
    rw [ofInt, decide_eq_false positive]
    rfl
  rw [natural]
  apply inRange_mean
  · intro n listed
    obtain ⟨score, counted, rfl⟩ := List.mem_map.mp listed
    have bound := bounds score counted
    have small : score.natAbs < 6 := by omega
    exact small.trans (by decide)
  · rw [List.length_map]
    exact (length_scores_le runs).trans_lt few

theorem isFinite_mean_durations {runs : List Run} (measured : ∀ r ∈ runs, r.Measured)
    (few : runs.length < UInt64.size) : ∀ x ∈ mean (runs.map (·.durationSeconds)),
      x.isFinite = (Run.totalDuration runs).isFinite := by
  intro x worked
  obtain ⟨some, rfl⟩ := eq_of_mem_mean worked
  rw [List.length_map] at some ⊢
  have total : IsTotal (Run.totalDuration runs) := by
    apply isTotal_foldl
    · intro d listed
      obtain ⟨r, member, rfl⟩ := List.mem_map.mp listed
      exact ⟨(measured r member).isFinite, (measured r member).notNegative⟩
    · exact .inl ⟨0, stands_zero⟩
  exact total.isFinite_div_count some few

theorem forall_isFinite_mean_iff {runs : List Run} (measured : ∀ r ∈ runs, r.Measured)
    (few : runs.length < UInt64.size) :
    (∀ x ∈ mean (runs.map (·.durationSeconds)), x.isFinite = true) ↔
      (Run.totalDuration runs).isFinite = true := by
  have same := isFinite_mean_durations measured few
  cases worked : mean (runs.map (·.durationSeconds)) with
  | none =>
    obtain rfl := List.map_eq_nil_iff.mp ((mean_eq_none_iff _).mp worked)
    have zero : (Run.totalDuration []).isFinite = true := stands_zero.isFinite
    simp [zero]
  | some x => simp [← same x worked]

end ConditionSummary
end ToolTrial
