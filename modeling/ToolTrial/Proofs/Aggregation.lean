import Mathlib.Data.List.Basic
import ToolTrial.Score.Summary

/-!
What a summary of runs adds up.  Its counts are sums over the runs, so those of runs that are put
together are added; none of them exceeds the one that it is a share of.  An average is missing
exactly when no run has anything to average, and a total of tokens that would not be below the bound
is nothing to average.
-/

set_option autoImplicit false
set_option relaxedAutoImplicit false

namespace ToolTrial

theorem TokenUsage.effectiveTotal_eq_none_iff (u : TokenUsage) : u.effectiveTotal = none ↔
    u.total = none ∧ (u.input = none ∨ u.output = none ∨
      ∃ i o, u.input = some i ∧ u.output = some o ∧ TokenUsage.bound ≤ i + o) := by
  obtain ⟨input, output, total⟩ := u
  cases total <;> cases input <;> cases output <;> simp [effectiveTotal]

namespace ConditionSummary

section Totals

variable (count : Run → Nat)

theorem total_cons (r : Run) (runs : List Run) :
    total count (r :: runs) = count r + total count runs :=
  rfl

theorem total_append (runs more : List Run) :
    total count (runs ++ more) = total count runs + total count more := by
  induction runs with
  | nil => exact (Nat.zero_add _).symm
  | cons r rest ih => rw [List.cons_append, total_cons, total_cons, ih, Nat.add_assoc]

theorem total_le_total {count bound : Run → Nat} (le : ∀ r, count r ≤ bound r) (runs : List Run) :
    total count runs ≤ total bound runs := by
  induction runs with
  | nil => exact Nat.le_refl _
  | cons r rest ih => exact Nat.add_le_add (le r) ih

theorem total_le_of_sublist {some runs : List Run} (part : some.Sublist runs) :
    total count some ≤ total count runs := by
  induction part with
  | slnil => exact Nat.le_refl _
  | cons r _ ih => exact Nat.le_trans ih (Nat.le_add_left _ _)
  | cons_cons r _ ih => exact Nat.add_le_add_left ih _

theorem total_eq_zero_iff (runs : List Run) : total count runs = 0 ↔ ∀ r ∈ runs, count r = 0 := by
  induction runs with
  | nil => simp [total]
  | cons r rest ih => rw [total_cons, Nat.add_eq_zero_iff, ih, List.forall_mem_cons]

/-- Runs that have one of something at least are no more than there are of it. -/
theorem countP_le_total {has : Run → Bool} {count : Run → Nat}
    (least : ∀ r, has r = true → 1 ≤ count r) (runs : List Run) :
    runs.countP has ≤ total count runs := by
  induction runs with
  | nil => exact Nat.le_refl _
  | cons r rest ih =>
    rw [List.countP_cons, total_cons, Nat.add_comm]
    refine Nat.add_le_add ?_ ih
    split
    case isTrue there => exact least r there
    case isFalse => exact Nat.zero_le _

end Totals

theorem mean_eq_none_iff (values : List Float) : mean values = none ↔ values = [] := by
  rw [mean]
  cases values <;> simp

theorem meanCount_eq_none_iff (count : Run → Option Nat) (runs : List Run) :
    meanCount count runs = none ↔ ∀ r ∈ runs, count r = none := by
  rw [meanCount, mean_eq_none_iff, List.map_eq_nil_iff, List.filterMap_eq_nil_iff]

theorem scores_append (runs more : List Run) :
    scores (runs ++ more) = scores runs ++ scores more := by
  rw [scores, List.filterMap_append, List.filter_append, scores, scores]

theorem length_scores_le (runs : List Run) : (scores runs).length ≤ runs.length :=
  Nat.le_trans (List.length_filter_le _ _) (List.length_filterMap_le _ _)

theorem scores_eq_nil_iff (runs : List Run) : scores runs = [] ↔
    ∀ r ∈ runs, ∀ score, r.helpfulness = some score → ¬ (1 ≤ score ∧ score ≤ 5) := by
  have counts (score : Int) : Run.isScore score = true ↔ 1 ≤ score ∧ score ≤ 5 := by
    rw [Run.isScore, Bool.and_eq_true, decide_eq_true_iff, decide_eq_true_iff]
    exact Iff.rfl
  rw [scores, List.filter_eq_nil_iff]
  simp only [counts, List.mem_filterMap]
  constructor
  · exact fun none r member score given => none score ⟨r, member, given⟩
  · rintro none score ⟨r, member, given⟩
    exact none r member score given

/-- The counts of a summary are those of two others together. -/
structure Joins (a b whole : ConditionSummary) : Prop where
  runCount : whole.runCount = a.runCount + b.runCount
  succeededRuns : whole.succeededRuns = a.succeededRuns + b.succeededRuns
  compilePassedRuns : whole.compilePassedRuns = a.compilePassedRuns + b.compilePassedRuns
  testsPassedRuns : whole.testsPassedRuns = a.testsPassedRuns + b.testsPassedRuns
  toolUsedRuns : whole.toolUsedRuns = a.toolUsedRuns + b.toolUsedRuns
  totalToolCalls : whole.totalToolCalls = a.totalToolCalls + b.totalToolCalls
  treatmentToolCalls : whole.treatmentToolCalls = a.treatmentToolCalls + b.treatmentToolCalls
  helpfulnessCount : whole.helpfulnessCount = a.helpfulnessCount + b.helpfulnessCount

/-- The rates of a summary, each with the count and the total that it is worked out from. -/
def quotients (s : ConditionSummary) : List (Float × Nat × Nat) :=
  [(s.successRate, s.succeededRuns, s.runCount),
    (s.compileRate, s.compilePassedRuns, s.runCount),
    (s.testsRate, s.testsPassedRuns, s.runCount),
    (s.toolUsedRate, s.toolUsedRuns, s.runCount),
    (s.toolCallShare, s.treatmentToolCalls, s.totalToolCalls)]

/-- A summary none of whose counts exceeds what it is a share of. -/
structure Bounded (s : ConditionSummary) : Prop where
  succeeded : s.succeededRuns ≤ s.runCount
  compiled : s.compilePassedRuns ≤ s.runCount
  tested : s.testsPassedRuns ≤ s.runCount
  used : s.toolUsedRuns ≤ s.runCount
  scored : s.helpfulnessCount ≤ s.runCount
  used_le_calls : s.toolUsedRuns ≤ s.treatmentToolCalls
  calls_le : s.treatmentToolCalls ≤ s.totalToolCalls
  used_eq_zero_iff : s.toolUsedRuns = 0 ↔ s.treatmentToolCalls = 0
  quotients : ∀ e ∈ s.quotients, e.1 = rate e.2.1 e.2.2 ∧ e.2.1 ≤ e.2.2

/-- A summary whose averages are missing exactly where runs have nothing to average. -/
structure Averages (runs : List Run) (s : ConditionSummary) : Prop where
  duration : s.averageDurationSeconds = none ↔ runs = []
  helpfulness : s.averageHelpfulness = none ↔
    ∀ r ∈ runs, ∀ score, r.helpfulness = some score → ¬ (1 ≤ score ∧ score ≤ 5)
  totalTokens : s.averageTotalTokens = none ↔
    ∀ r ∈ runs, r.tokenUsage.bind (·.total) = none ∧
      (r.tokenUsage.bind (·.input) = none ∨ r.tokenUsage.bind (·.output) = none ∨
        ∃ i o, r.tokenUsage.bind (·.input) = some i ∧ r.tokenUsage.bind (·.output) = some o ∧
          UInt64.size ≤ i + o)

section Runs

variable (c : Condition) (t : Tooling) (runs : List Run)

theorem joins_ofRuns_append (more : List Run) :
    (ofRuns c t runs).Joins (ofRuns c t more) (ofRuns c t (runs ++ more)) := by
  have scored : (scores (runs ++ more)).length = (scores runs).length + (scores more).length := by
    rw [scores_append, List.length_append]
  exact ⟨List.length_append, List.countP_append, List.countP_append, List.countP_append,
    List.countP_append, total_append _ _ _, total_append _ _ _, scored⟩

theorem wasUsed_iff_one_le (r : Run) :
    t.wasUsed r = true ↔ 1 ≤ (t.treatmentCalls r).length := by
  rw [Tooling.wasUsed, Nat.one_le_iff_ne_zero, ne_eq, List.length_eq_zero_iff]
  simp

theorem bounded_ofRuns : (ofRuns c t runs).Bounded := by
  have used : (ofRuns c t runs).toolUsedRuns ≤ (ofRuns c t runs).treatmentToolCalls :=
    countP_le_total (fun r => (wasUsed_iff_one_le t r).mp) runs
  have calls : (ofRuns c t runs).treatmentToolCalls ≤ (ofRuns c t runs).totalToolCalls :=
    total_le_total (fun r => List.length_filter_le _ r.toolCalls) runs
  have unused : (ofRuns c t runs).toolUsedRuns = 0 → (ofRuns c t runs).treatmentToolCalls = 0 := by
    intro none
    refine (total_eq_zero_iff _ runs).mpr fun r member => ?_
    have idle := List.countP_eq_zero.mp none r member
    rw [wasUsed_iff_one_le] at idle
    omega
  refine ⟨List.countP_le_length, List.countP_le_length, List.countP_le_length,
    List.countP_le_length, length_scores_le runs, used, calls, ⟨unused, fun none => ?_⟩, ?_⟩
  · exact Nat.le_zero.mp (none ▸ used)
  · simp only [quotients, List.forall_mem_cons, List.not_mem_nil, false_implies, implies_true,
      and_true]
    exact ⟨⟨rfl, List.countP_le_length⟩, ⟨rfl, List.countP_le_length⟩,
      ⟨rfl, List.countP_le_length⟩, ⟨rfl, List.countP_le_length⟩, rfl, calls⟩

theorem effectiveTotal_bind_eq_none_iff (r : Run) :
    r.tokenUsage.bind (·.effectiveTotal) = none ↔ r.tokenUsage.bind (·.total) = none ∧
      (r.tokenUsage.bind (·.input) = none ∨ r.tokenUsage.bind (·.output) = none ∨
        ∃ i o, r.tokenUsage.bind (·.input) = some i ∧ r.tokenUsage.bind (·.output) = some o ∧
          UInt64.size ≤ i + o) := by
  cases r.tokenUsage with
  | none => simp
  | some u =>
    rw [Option.bind_some, u.effectiveTotal_eq_none_iff]
    exact Iff.rfl

theorem averages_ofRuns : (ofRuns c t runs).Averages runs := by
  refine ⟨?_, ?_, ?_⟩
  · exact (mean_eq_none_iff _).trans List.map_eq_nil_iff
  · exact ((mean_eq_none_iff _).trans List.map_eq_nil_iff).trans (scores_eq_nil_iff runs)
  · refine (meanCount_eq_none_iff _ runs).trans ?_
    exact forall₂_congr fun r _ => effectiveTotal_bind_eq_none_iff r

end Runs

/-- Summaries aggregate, whatever the arm and the names of its tools.  The counts for runs that are
put together are added up, no rate is worked out from more than its total, and an average is missing
exactly when there is nothing to average. -/
theorem ofRuns_aggregates (c : Condition) (starts : List String) :
    (∀ a b, (ofRuns c (.ofList starts) a).Joins (ofRuns c (.ofList starts) b)
      (ofRuns c (.ofList starts) (a ++ b))) ∧
    ∀ runs, (ofRuns c (.ofList starts) runs).Bounded ∧
      (ofRuns c (.ofList starts) runs).Averages runs :=
  ⟨fun a b => joins_ofRuns_append c _ a b,
    fun runs => ⟨bounded_ofRuns c _ runs, averages_ofRuns c _ runs⟩⟩

end ConditionSummary
end ToolTrial
