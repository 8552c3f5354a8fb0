import ToolTrial.Proofs.FloatText
import ToolTrial.Proofs.ReportDocument

/-!
The documents of scores.  A float that is not finite has no number there: where a float may be
absent it is read back as absent, and where none may be absent the report cannot be read again.  So
a report whose required floats are finite is read back as far as its document carries it.
-/

set_option autoImplicit false
set_option relaxedAutoImplicit false

namespace ToolTrial

open Json (Decoder DecodeError IsNumber Member Readable Record)
open Json.Decoder
open Json.Record (takes_of)

namespace Json

/-- What a document keeps of an optional float. -/
def carried (o : Option Float) : Option Float := o.filter Float.isFinite

theorem carried_eq_self {o : Option Float} (finite : ∀ x ∈ o, x.isFinite = true) :
    carried o = o := by
  cases o with
  | none => rfl
  | some x => exact Option.filter_eq_some_iff.mpr ⟨rfl, finite x rfl⟩

theorem Decoder.optional_ofFloat (o : Option Float) :
    optional float (ofOption ofFloat o) = .ok (carried o) := by
  cases o with
  | none => rfl
  | some x =>
    rw [ofOption, ofFloat, carried, Option.filter]
    split <;> rfl

theorem readable_ofOption_ofFloat {depth : Nat} (o : Option Float) :
    Readable IsNumber depth (ofOption ofFloat o) :=
  readable_ofOption fun x _ => readable_ofFloat x

end Json

/-- Floats that a document can carry. -/
def AreFinite (floats : List Float) : Prop :=
  ∀ x ∈ floats, x.isFinite = true

def AreCarried (floats : List (Option Float)) : Prop :=
  ∀ o ∈ floats, ∀ x ∈ o, x.isFinite = true

instance (floats : List Float) : Decidable (AreFinite floats) :=
  inferInstanceAs (Decidable (∀ x ∈ floats, x.isFinite = true))

instance (floats : List (Option Float)) : Decidable (AreCarried floats) :=
  inferInstanceAs (Decidable (∀ o ∈ floats, ∀ x ∈ o, x.isFinite = true))

namespace ConditionSummary

variable {s : ConditionSummary}

def counts (s : ConditionSummary) : List Nat :=
  [s.runCount, s.succeededRuns, s.compilePassedRuns, s.testsPassedRuns, s.toolUsedRuns,
    s.totalToolCalls, s.treatmentToolCalls, s.helpfulnessCount]

def rates (s : ConditionSummary) : List Float :=
  [s.successRate, s.compileRate, s.testsRate, s.toolUsedRate, s.toolCallShare]

def averages (s : ConditionSummary) : List (Option Float) :=
  [s.averageDurationSeconds, s.averageHelpfulness, s.averageInputTokens, s.averageOutputTokens,
    s.averageTotalTokens]

structure Encodable (s : ConditionSummary) : Prop where
  counts : AreCounts s.counts
  rates : AreFinite s.rates

instance (s : ConditionSummary) : Decidable s.Encodable :=
  decidable_of_iff (AreCounts s.counts ∧ AreFinite s.rates)
    ⟨fun h => ⟨h.1, h.2⟩, fun h => ⟨h.counts, h.rates⟩⟩

/-- A summary as far as its document carries it. -/
def carried (s : ConditionSummary) : ConditionSummary :=
  { s with
    averageDurationSeconds := Json.carried s.averageDurationSeconds
    averageHelpfulness := Json.carried s.averageHelpfulness
    averageInputTokens := Json.carried s.averageInputTokens
    averageOutputTokens := Json.carried s.averageOutputTokens
    averageTotalTokens := Json.carried s.averageTotalTokens }

theorem carried_eq_self (h : AreCarried s.averages) : s.carried = s := by
  simp only [AreCarried, averages, List.forall_mem_cons] at h
  obtain ⟨duration, helpfulness, input, output, total, -⟩ := h
  simp only [carried, Json.carried_eq_self duration, Json.carried_eq_self helpfulness,
    Json.carried_eq_self input, Json.carried_eq_self output, Json.carried_eq_self total]

theorem decode_toJson (h : s.Encodable) : decode s.toJson = .ok s.carried := by
  obtain ⟨runs, succeeded, compiled, tested, used, calls, treatment, scores, -⟩ := by
    simpa only [AreCounts, counts, List.forall_mem_cons] using h.counts
  obtain ⟨success, compile, tests, usage, share, -⟩ := by
    simpa only [AreFinite, rates, List.forall_mem_cons] using h.rates
  rw [decode, toJson]
  refine Record.read_object_bind ?_ (by simp) fun r values => ?_
  · simp only [List.forall_mem_cons]
    exact ⟨takes_of rfl rfl, takes_of rfl rfl, takes_of rfl rfl, takes_of rfl (count_ofNat runs),
      takes_of rfl (count_ofNat succeeded), takes_of rfl (count_ofNat compiled),
      takes_of rfl (count_ofNat tested), takes_of rfl (float_ofFloat success),
      takes_of rfl (float_ofFloat compile), takes_of rfl (float_ofFloat tests),
      takes_of rfl (optional_ofFloat _), takes_of rfl (count_ofNat used),
      takes_of rfl (float_ofFloat usage), takes_of rfl (count_ofNat calls),
      takes_of rfl (count_ofNat treatment), takes_of rfl (float_ofFloat share),
      takes_of rfl (count_ofNat scores), takes_of rfl (optional_ofFloat _),
      takes_of rfl (optional_ofFloat _), takes_of rfl (optional_ofFloat _),
      takes_of rfl (optional_ofFloat _), by simp⟩
  · have required {α : Type} {name : String} {decode : Decoder α} {j : Json} {a : α}
        (found : Json.member? name r.values = some j) (read : decode j = .ok a) :
        r.required name decode = .ok a :=
      Record.required_eq_ok found read
    have average {name : String} {o : Option Float}
        (found : Json.member? name r.values = some (Json.ofOption Json.ofFloat o)) :
        r.nullable name float = .ok (Json.carried o) :=
      Record.nullable_eq_ok found (optional_ofFloat o)
    rw [values] at required average
    simp only [bind_eq_ok_iff, pure_eq_ok_iff]
    exact ⟨_, required rfl rfl, _, required rfl rfl, _, required rfl rfl,
      _, required rfl (count_ofNat runs), _, required rfl (count_ofNat succeeded),
      _, required rfl (count_ofNat compiled), _, required rfl (count_ofNat tested),
      _, required rfl (float_ofFloat success), _, required rfl (float_ofFloat compile),
      _, required rfl (float_ofFloat tests), _, average rfl, _, required rfl (count_ofNat used),
      _, required rfl (float_ofFloat usage), _, required rfl (count_ofNat calls),
      _, required rfl (count_ofNat treatment), _, required rfl (float_ofFloat share),
      _, required rfl (count_ofNat scores), _, average rfl, _, average rfl, _, average rfl,
      _, average rfl, rfl⟩

theorem readable_toJson {depth : Nat} (h : AreCounts s.counts) :
    Readable IsNumber (depth + 1) s.toJson := by
  simp only [AreCounts, counts, List.forall_mem_cons] at h
  obtain ⟨runs, succeeded, compiled, tested, used, calls, treatment, scores, -⟩ := h
  have average (o : Option Float) : Readable IsNumber depth (Json.ofOption Json.ofFloat o) :=
    Json.readable_ofOption_ofFloat o
  refine Readable.object (by simp) ?_
  simp only [List.forall_mem_cons]
  exact ⟨.text _, .text _, .bool _, Json.readable_ofNat runs,
    Json.readable_ofNat succeeded, Json.readable_ofNat compiled, Json.readable_ofNat tested,
    Json.readable_ofFloat _, Json.readable_ofFloat _, Json.readable_ofFloat _, average _,
    Json.readable_ofNat used, Json.readable_ofFloat _, Json.readable_ofNat calls,
    Json.readable_ofNat treatment, Json.readable_ofFloat _, Json.readable_ofNat scores, average _,
    average _, average _, average _, by simp⟩

end ConditionSummary

namespace Deltas

variable {d : Deltas}

def rates (d : Deltas) : List Float :=
  [d.successRate, d.compileRate, d.testsRate, d.toolUsedRate, d.toolCallShare]

def optionals (d : Deltas) : List (Option Float) :=
  [d.helpfulness, d.totalTokens, d.totalTokensRatio]

def carried (d : Deltas) : Deltas :=
  { d with
    helpfulness := Json.carried d.helpfulness
    totalTokens := Json.carried d.totalTokens
    totalTokensRatio := Json.carried d.totalTokensRatio }

theorem carried_eq_self (h : AreCarried d.optionals) : d.carried = d := by
  simp only [AreCarried, optionals, List.forall_mem_cons] at h
  obtain ⟨helpfulness, tokens, ratio, -⟩ := h
  simp only [carried, Json.carried_eq_self helpfulness, Json.carried_eq_self tokens,
    Json.carried_eq_self ratio]

theorem ofMembers_after (h : AreFinite d.rates) (before : List (String × Json))
    (unknown : ∀ e ∈ before, (members.find? fun m => m.isCalled e.1) = none) :
    ofMembers (before ++ d.toMembers) = .ok d.carried := by
  obtain ⟨success, compile, tests, usage, share, -⟩ := by
    simpa only [AreFinite, rates, List.forall_mem_cons] using h
  obtain ⟨r, read, values⟩ : ∃ r, Record.ofObject "ComparisonDeltas" members
      (before ++ d.toMembers) = .ok r ∧ r.values = d.toMembers := by
    rw [← List.append_nil (before ++ d.toMembers)]
    refine Record.ofObject_between _ before ?_ (by simp [toMembers]) (by rwa [List.append_nil])
    simp only [toMembers, List.forall_mem_cons]
    exact ⟨takes_of rfl (float_ofFloat success), takes_of rfl (float_ofFloat compile),
      takes_of rfl (float_ofFloat tests), takes_of rfl (float_ofFloat usage),
      takes_of rfl (float_ofFloat share), takes_of rfl (optional_ofFloat _),
      takes_of rfl (optional_ofFloat _), takes_of rfl (optional_ofFloat _), by simp⟩
  simp only [ofMembers, bind_eq_ok_iff, pure_eq_ok_iff]
  refine ⟨r, read, d.successRate, ?_, d.compileRate, ?_, d.testsRate, ?_, d.toolUsedRate, ?_,
    d.toolCallShare, ?_, Json.carried d.helpfulness, ?_, Json.carried d.totalTokens, ?_,
    Json.carried d.totalTokensRatio, ?_, rfl⟩
  · exact Record.required_eq_ok (values ▸ rfl) (float_ofFloat success)
  · exact Record.required_eq_ok (values ▸ rfl) (float_ofFloat compile)
  · exact Record.required_eq_ok (values ▸ rfl) (float_ofFloat tests)
  · exact Record.required_eq_ok (values ▸ rfl) (float_ofFloat usage)
  · exact Record.required_eq_ok (values ▸ rfl) (float_ofFloat share)
  · exact Record.orDefault_eq_ok _ (values ▸ rfl) (optional_ofFloat _)
  · exact Record.orDefault_eq_ok _ (values ▸ rfl) (optional_ofFloat _)
  · exact Record.orDefault_eq_ok _ (values ▸ rfl) (optional_ofFloat _)

end Deltas

namespace Insufficiency

variable {d : Insufficiency}

def optionals (d : Insufficiency) : List (Option Float) :=
  [d.controlSuccessRate, d.treatmentSuccessRate, d.treatmentToolUsedRate]

def carried (d : Insufficiency) : Insufficiency :=
  { d with
    controlSuccessRate := Json.carried d.controlSuccessRate
    treatmentSuccessRate := Json.carried d.treatmentSuccessRate
    treatmentToolUsedRate := Json.carried d.treatmentToolUsedRate }

theorem carried_eq_self (h : AreCarried d.optionals) : d.carried = d := by
  simp only [AreCarried, optionals, List.forall_mem_cons] at h
  obtain ⟨control, treatment, usage, -⟩ := h
  simp only [carried, Json.carried_eq_self control, Json.carried_eq_self treatment,
    Json.carried_eq_self usage]

theorem ofMembers_after (d : Insufficiency) (before : List (String × Json))
    (unknown : ∀ e ∈ before, (members.find? fun m => m.isCalled e.1) = none) :
    ofMembers (before ++ d.toMembers) = .ok d.carried := by
  obtain ⟨r, read, values⟩ : ∃ r, Record.ofObject "InsufficientData" members
      (before ++ d.toMembers) = .ok r ∧ r.values = d.toMembers := by
    rw [← List.append_nil (before ++ d.toMembers)]
    refine Record.ofObject_between _ before ?_ (by simp [toMembers]) (by rwa [List.append_nil])
    simp only [toMembers, List.forall_mem_cons]
    exact ⟨takes_of rfl rfl, takes_of rfl (optional_ofFloat _), takes_of rfl (optional_ofFloat _),
      takes_of rfl (optional_ofFloat _), by simp⟩
  simp only [ofMembers, bind_eq_ok_iff, pure_eq_ok_iff]
  refine ⟨r, read, d.note, ?_, Json.carried d.controlSuccessRate, ?_,
    Json.carried d.treatmentSuccessRate, ?_, Json.carried d.treatmentToolUsedRate, ?_, rfl⟩
  · exact Record.required_eq_ok (values ▸ rfl) (text_text _)
  · exact Record.orDefault_eq_ok _ (values ▸ rfl) (optional_ofFloat _)
  · exact Record.orDefault_eq_ok _ (values ▸ rfl) (optional_ofFloat _)
  · exact Record.orDefault_eq_ok _ (values ▸ rfl) (optional_ofFloat _)

end Insufficiency

namespace Outcome

variable {o : Outcome}

def rates : Outcome → List Float
  | .computed d => d.rates
  | .insufficient _ => []

def optionals : Outcome → List (Option Float)
  | .computed d => d.optionals
  | .insufficient d => d.optionals

def carried : Outcome → Outcome
  | .computed d => .computed d.carried
  | .insufficient d => .insufficient d.carried

theorem carried_eq_self (h : AreCarried o.optionals) : o.carried = o := by
  cases o with
  | computed d => exact congrArg computed (Deltas.carried_eq_self h)
  | insufficient d => exact congrArg insufficient (Insufficiency.carried_eq_self h)

theorem ofMembers_after (h : AreFinite o.rates) {before : List (String × Json)}
    (noStatus : Json.member? "status" before = none)
    (noDelta : ∀ e ∈ before, (Deltas.members.find? fun m => m.isCalled e.1) = none)
    (noData : ∀ e ∈ before, (Insufficiency.members.find? fun m => m.isCalled e.1) = none) :
    ofMembers (before ++ o.toMembers) = .ok o.carried := by
  have status : Json.member? "status" (before ++ o.toMembers) = some (.text o.status.name) := by
    rw [Json.member?_append, noStatus]
    rfl
  rw [ofMembers, status]
  cases o with
  | computed d =>
    have deltas := Deltas.ofMembers_after h (before ++ [("status", .text "computed")]) (by
        rw [List.forall_mem_append, List.forall_mem_singleton]
        exact ⟨noDelta, rfl⟩)
    rw [List.append_assoc] at deltas
    exact bind_eq_ok_iff.mpr ⟨.computed, rfl, bind_eq_ok_iff.mpr ⟨_, deltas, rfl⟩⟩
  | insufficient d =>
    have data := Insufficiency.ofMembers_after d (before ++ [("status", .text "insufficient")]) (by
        rw [List.forall_mem_append, List.forall_mem_singleton]
        exact ⟨noData, rfl⟩)
    rw [List.append_assoc] at data
    exact bind_eq_ok_iff.mpr ⟨.insufficient, rfl, bind_eq_ok_iff.mpr ⟨_, data, rfl⟩⟩

end Outcome

namespace Comparison

variable {c : Comparison}

structure Encodable (c : Comparison) : Prop where
  counts : AreCounts [c.controlRuns, c.treatmentRuns]
  rates : AreFinite c.outcome.rates

instance (c : Comparison) : Decidable c.Encodable :=
  decidable_of_iff (AreCounts [c.controlRuns, c.treatmentRuns] ∧ AreFinite c.outcome.rates)
    ⟨fun h => ⟨h.1, h.2⟩, fun h => ⟨h.counts, h.rates⟩⟩

def carried (c : Comparison) : Comparison := { c with outcome := c.outcome.carried }

theorem carried_eq_self (h : AreCarried c.outcome.optionals) : c.carried = c := by
  rw [carried, Outcome.carried_eq_self h]

/-- The members that do not go with the status. -/
private def own (c : Comparison) : List (String × Json) :=
  [("control_condition_id", Json.ofOption .text c.controlId),
    ("treatment_condition_id", Json.ofOption .text c.treatmentId),
    ("control_runs", Json.ofNat c.controlRuns), ("treatment_runs", Json.ofNat c.treatmentRuns),
    ("sufficient_data", .bool c.sufficientData)]

private theorem optional_text (o : Option String) :
    optional text (Json.ofOption .text o) = .ok o :=
  optional_ofOption (by simp) fun _ _ => rfl

theorem decode_toJson (h : c.Encodable) : decode c.toJson = .ok c.carried := by
  obtain ⟨control, treatment, -⟩ := by simpa only [AreCounts, List.forall_mem_cons] using h.counts
  obtain ⟨r, read, values⟩ : ∃ r, Record.ofObject "ComparisonDoc" members
      (own c ++ c.outcome.toMembers) = .ok r ∧ r.values = own c := by
    refine Record.ofObject_between _ [] ?_ (by simp) ?_
    · simp only [List.forall_mem_cons]
      exact ⟨takes_of rfl (optional_text _), takes_of rfl (optional_text _),
        takes_of rfl (count_ofNat control), takes_of rfl (count_ofNat treatment),
        takes_of rfl rfl, by simp⟩
    · cases c.outcome with
      | computed d =>
        simp only [Outcome.toMembers, Deltas.toMembers, List.nil_append, List.forall_mem_cons]
        exact ⟨rfl, rfl, rfl, rfl, rfl, rfl, rfl, rfl, rfl, by simp⟩
      | insufficient d =>
        simp only [Outcome.toMembers, Insufficiency.toMembers, List.nil_append,
          List.forall_mem_cons]
        exact ⟨rfl, rfl, rfl, rfl, rfl, by simp⟩
  have outcome : Outcome.ofMembers (own c ++ c.outcome.toMembers) = .ok c.outcome.carried := by
    refine Outcome.ofMembers_after h.rates rfl ?_ ?_
    all_goals
      simp only [own, List.forall_mem_cons]
      exact ⟨rfl, rfl, rfl, rfl, rfl, by simp⟩
  have flag : c.carried.sufficientData = c.sufficientData := by
    rw [sufficientData, sufficientData, carried]
    cases c.outcome <;> rfl
  show (Record.ofObject "ComparisonDoc" members (own c ++ c.outcome.toMembers) >>= _) = _
  simp only [bind_eq_ok_iff]
  refine ⟨r, read, c.controlId, ?_, c.treatmentId, ?_, c.controlRuns, ?_, c.treatmentRuns, ?_,
    c.sufficientData, ?_, c.outcome.carried, outcome, if_pos flag⟩
  · exact Record.orDefault_eq_ok _ (values ▸ rfl) (optional_text _)
  · exact Record.orDefault_eq_ok _ (values ▸ rfl) (optional_text _)
  · exact Record.required_eq_ok (values ▸ rfl) (count_ofNat control)
  · exact Record.required_eq_ok (values ▸ rfl) (count_ofNat treatment)
  · exact Record.required_eq_ok (values ▸ rfl) (boolean_bool _)

theorem readable_toJson {depth : Nat} (h : AreCounts [c.controlRuns, c.treatmentRuns]) :
    Readable IsNumber (depth + 1) c.toJson := by
  simp only [AreCounts, List.forall_mem_cons] at h
  obtain ⟨control, treatment, -⟩ := h
  have name (o : Option String) : Readable IsNumber depth (Json.ofOption .text o) :=
    Json.readable_ofOption fun s _ => .text s
  have optional (o : Option Float) : Readable IsNumber depth (Json.ofOption Json.ofFloat o) :=
    Json.readable_ofOption_ofFloat o
  rw [toJson]
  cases c.outcome with
  | computed d =>
    refine Readable.object (by simp [Outcome.toMembers, Deltas.toMembers]) ?_
    simp only [Outcome.toMembers, Deltas.toMembers, List.cons_append, List.nil_append,
      List.forall_mem_cons]
    exact ⟨name _, name _, Json.readable_ofNat control, Json.readable_ofNat treatment,
      .bool _, .text _, Json.readable_ofFloat _, Json.readable_ofFloat _,
      Json.readable_ofFloat _, Json.readable_ofFloat _, Json.readable_ofFloat _, optional _,
      optional _, optional _, by simp⟩
  | insufficient d =>
    refine Readable.object (by simp [Outcome.toMembers, Insufficiency.toMembers]) ?_
    simp only [Outcome.toMembers, Insufficiency.toMembers, List.cons_append, List.nil_append,
      List.forall_mem_cons]
    exact ⟨name _, name _, Json.readable_ofNat control, Json.readable_ofNat treatment,
      .bool _, .text _, .text _, optional _, optional _, optional _, by simp⟩

end Comparison

namespace TaskComparison

def carried (t : TaskComparison) : TaskComparison := { t with comparison := t.comparison.carried }

theorem decode_toJson {t : TaskComparison} (h : t.comparison.Encodable) :
    decode t.toJson = .ok t.carried := by
  have compared := Comparison.decode_toJson h
  rw [decode, toJson]
  refine Record.read_object_bind ?_ (by simp) fun r values => ?_
  · simp only [List.forall_mem_cons]
    exact ⟨takes_of rfl rfl, takes_of rfl compared, by simp⟩
  · simp only [bind_eq_ok_iff, pure_eq_ok_iff]
    refine ⟨t.taskId, ?_, t.comparison.carried, ?_, rfl⟩
    · exact Record.required_eq_ok (values ▸ rfl) (text_text _)
    · exact Record.required_eq_ok (values ▸ rfl) compared

end TaskComparison

namespace ScoreReport

variable {r : ScoreReport}

structure Encodable (r : ScoreReport) : Prop where
  total : r.totalRuns < UInt64.size
  summaries : ∀ s ∈ r.summaries, s.Encodable
  primary : r.primary.Encodable
  byTask : ∀ t ∈ r.byTask, t.comparison.Encodable

instance (r : ScoreReport) : Decidable r.Encodable :=
  decidable_of_iff (r.totalRuns < UInt64.size ∧ (∀ s ∈ r.summaries, s.Encodable) ∧
      r.primary.Encodable ∧ ∀ t ∈ r.byTask, t.comparison.Encodable)
    ⟨fun h => ⟨h.1, h.2.1, h.2.2.1, h.2.2.2⟩, fun h => ⟨h.total, h.summaries, h.primary, h.byTask⟩⟩

def carried (r : ScoreReport) : ScoreReport :=
  { r with
    summaries := r.summaries.map ConditionSummary.carried
    primary := r.primary.carried
    byTask := r.byTask.map TaskComparison.carried }

/-- The floats of a report that may be absent. -/
def optionals (r : ScoreReport) : List (Option Float) :=
  r.summaries.flatMap ConditionSummary.averages ++ r.primary.outcome.optionals ++
    r.byTask.flatMap fun t => t.comparison.outcome.optionals

theorem carried_eq_self (h : AreCarried r.optionals) : r.carried = r := by
  simp only [AreCarried, optionals, List.forall_mem_append, List.forall_mem_flatMap] at h
  obtain ⟨⟨averages, primary⟩, tasks⟩ := h
  have summaries : r.summaries.map ConditionSummary.carried = r.summaries :=
    (List.map_congr_left fun s inside => ConditionSummary.carried_eq_self (averages s inside)).trans
      (List.map_id _)
  have byTask : r.byTask.map TaskComparison.carried = r.byTask := by
    refine (List.map_congr_left fun t inside => ?_).trans (List.map_id _)
    rw [TaskComparison.carried, Comparison.carried_eq_self (tasks t inside), id]
  rw [carried, summaries, Comparison.carried_eq_self primary, byTask]

/-- The document of a report on scores stands for that report, save floats that it cannot carry. -/
theorem decode_toJson (h : r.Encodable) : decode r.toJson = .ok r.carried := by
  have total := count_ofNat h.total
  have summaries :=
    list_map_map fun s inside => ConditionSummary.decode_toJson (h.summaries s inside)
  have primary := Comparison.decode_toJson h.primary
  have byTask := list_map_map fun t inside => TaskComparison.decode_toJson (h.byTask t inside)
  rw [decode, toJson]
  refine Record.read_object_bind ?_ (by simp) fun opened values => ?_
  · simp only [List.forall_mem_cons]
    exact ⟨takes_of rfl rfl, takes_of rfl rfl, takes_of rfl rfl, takes_of rfl total,
      takes_of rfl rfl, takes_of rfl summaries, takes_of rfl primary, takes_of rfl byTask,
      takes_of rfl rfl, by simp⟩
  · simp only [bind_eq_ok_iff, pure_eq_ok_iff]
    refine ⟨r.experimentId, ?_, r.generatedAt, ?_, r.manifestSha256, ?_, r.totalRuns, ?_,
      r.sufficientData, ?_, _, ?_, r.primary.carried, ?_, _, ?_, r.outputPath, ?_, rfl⟩
    · exact Record.required_eq_ok (values ▸ rfl) (text_text _)
    · exact Record.required_eq_ok (values ▸ rfl) (text_text _)
    · exact Record.required_eq_ok (values ▸ rfl) (text_text _)
    · exact Record.required_eq_ok (values ▸ rfl) total
    · exact Record.required_eq_ok (values ▸ rfl) (boolean_bool _)
    · exact Record.required_eq_ok (values ▸ rfl) summaries
    · exact Record.required_eq_ok (values ▸ rfl) primary
    · exact Record.required_eq_ok (values ▸ rfl) byTask
    · exact Record.required_eq_ok (values ▸ rfl) (Path.decode_toJson _)

theorem readable_toJson {depth : Nat} (h : r.Encodable) :
    Readable IsNumber (depth + 4) r.toJson := by
  have summaries : Readable IsNumber (depth + 3)
      (.array (r.summaries.map ConditionSummary.toJson)) := by
    refine .array fun j inside => ?_
    obtain ⟨s, member, rfl⟩ := List.mem_map.mp inside
    exact ConditionSummary.readable_toJson (h.summaries s member).counts
  have byTask : Readable IsNumber (depth + 3) (.array (r.byTask.map TaskComparison.toJson)) := by
    refine .array fun j inside => ?_
    obtain ⟨t, member, rfl⟩ := List.mem_map.mp inside
    refine Readable.object (by simp) ?_
    simp only [List.forall_mem_cons]
    exact ⟨.text _, Comparison.readable_toJson (h.byTask t member).counts, by simp⟩
  refine Readable.object (by simp) ?_
  simp only [List.forall_mem_cons]
  exact ⟨.text _, .text _, .text _, Json.readable_ofNat h.total, .bool _, summaries,
    Comparison.readable_toJson h.primary.counts, byTask, .text _, by simp⟩

end ScoreReport
end ToolTrial
