import ToolTrial.Proofs.Averaging
import ToolTrial.Proofs.Comparing
import ToolTrial.Proofs.Rejection
import ToolTrial.Proofs.Reloading
import ToolTrial.Proofs.ScoreRereading
import ToolTrial.Stages

/-!
What the saved report on scores says of missing averages.  An average of tokens is missing in the
document exactly where no run reports them, since it is always finite; that of durations is also
missing where the sum of the durations is infinite, and then the document does not stand for the
report.
-/

set_option autoImplicit false
set_option relaxedAutoImplicit false

namespace ToolTrial

open Number

/-- Runs that are so few, with so few calls of tools, that they can be counted. -/
def Run.Countable (runs : List Run) : Prop :=
  AreCounts [runs.length, ConditionSummary.total (·.toolCalls.length) runs]

instance (runs : List Run) : Decidable (Run.Countable runs) :=
  inferInstanceAs (Decidable (AreCounts _))

theorem Run.countable_iff (runs : List Run) : Countable runs ↔ runs.length < UInt64.size ∧
    ConditionSummary.total (·.toolCalls.length) runs < UInt64.size := by
  simp only [Countable, AreCounts, List.forall_mem_cons, List.not_mem_nil, false_implies,
    implies_true, and_true]

theorem Run.Countable.filter {runs : List Run} (h : Countable runs) (p : Run → Bool) :
    Countable (runs.filter p) := by
  rw [countable_iff] at h ⊢
  exact ⟨(List.length_filter_le p runs).trans_lt h.1,
    (ConditionSummary.total_le_of_sublist _ List.filter_sublist).trans_lt h.2⟩

namespace ConditionSummary

variable {s : ConditionSummary} {runs : List Run}

def countAverages (s : ConditionSummary) : List (Option Float) :=
  [s.averageHelpfulness, s.averageInputTokens, s.averageOutputTokens, s.averageTotalTokens]

/-- A summary as runs give it whose numbers can be counted: only its durations may add up to too
much. -/
structure Sound (s : ConditionSummary) : Prop where
  counts : AreCounts s.counts
  rates : ∀ x ∈ s.rates, InRange (-64) 64 x
  averages : ∀ o ∈ s.countAverages, ∀ x ∈ o, InRange (-64) 118 x

theorem sound_ofRuns (c : Condition) (t : Tooling) (measured : ∀ r ∈ runs, r.Measured)
    (countable : Run.Countable runs) : (ofRuns c t runs).Sound := by
  obtain ⟨few, calls⟩ := (Run.countable_iff runs).mp countable
  have bounded := bounded_ofRuns c t runs
  have counts : AreCounts (ofRuns c t runs).counts := by
    simp only [AreCounts, ConditionSummary.counts, List.forall_mem_cons]
    exact ⟨few, bounded.succeeded.trans_lt few, bounded.compiled.trans_lt few,
      bounded.tested.trans_lt few, bounded.used.trans_lt few, calls,
      bounded.calls_le.trans_lt calls, bounded.scored.trans_lt few, by simp⟩
  refine ⟨counts, ?_, ?_⟩
  · have total : ∀ e ∈ (ofRuns c t runs).quotients, e.2.2 < UInt64.size := by
      simp only [quotients, List.forall_mem_cons]
      exact ⟨few, few, few, few, calls, by simp⟩
    have worked (e : Float × Nat × Nat) (member : e ∈ (ofRuns c t runs).quotients) :
        InRange (-64) 64 e.1 := by
      obtain ⟨quotient, share⟩ := bounded.quotients e member
      rw [quotient]
      exact inRange_rate (share.trans_lt (total e member)) (total e member)
    intro x listed
    obtain ⟨e, member, rfl⟩ : ∃ e ∈ (ofRuns c t runs).quotients, e.1 = x := List.mem_map.mp listed
    exact worked e member
  · simp only [countAverages, List.forall_mem_cons]
    exact ⟨inRange_mean_scores few,
      inRange_meanCount (fun r member => (measured r member).input) few,
      inRange_meanCount (fun r member => (measured r member).output) few,
      inRange_meanCount (fun r member => (measured r member).effectiveTotal) few, by simp⟩

theorem Sound.encodable (h : s.Sound) : s.Encodable :=
  ⟨h.counts, fun x listed => (h.rates x listed).isFinite⟩

theorem Sound.areCarried_iff (h : s.Sound) : AreCarried s.averages ↔
    ∀ x ∈ s.averageDurationSeconds, x.isFinite = true := by
  have averages := h.averages
  simp only [countAverages, List.forall_mem_cons] at averages
  obtain ⟨helpfulness, input, output, total, -⟩ := averages
  simp only [AreCarried, ConditionSummary.averages, List.forall_mem_cons]
  constructor
  · exact fun carried => carried.1
  · intro finite
    exact ⟨finite, fun x inside => (helpfulness x inside).isFinite,
      fun x inside => (input x inside).isFinite, fun x inside => (output x inside).isFinite,
      fun x inside => (total x inside).isFinite, by simp⟩

theorem isFinite_of_carried_eq (same : s.carried = s) :
    ∀ x ∈ s.averageDurationSeconds, x.isFinite = true := by
  intro x inside
  rw [← congrArg averageDurationSeconds same] at inside
  exact (Option.mem_filter_iff.mp inside).2

end ConditionSummary

namespace Comparison

variable {control treatment : Option ConditionSummary}

private theorem exists_of_mem_difference {c t : Option Float} {x : Float} (h : x ∈ difference c t) :
    ∃ a ∈ c, ∃ b ∈ t, x = b - a := by
  unfold difference at h
  split at h
  · cases h
    exact ⟨_, rfl, _, rfl, rfl⟩
  · cases h

private theorem exists_of_mem_ratio {c t : Option Float} {x : Float} (h : x ∈ ratio c t) :
    ∃ a ∈ c, ∃ b ∈ t, a > 0.0 ∧ x = b / a := by
  unfold ratio at h
  split at h
  · split at h
    · rename_i positive
      cases h
      exact ⟨_, rfl, _, rfl, positive, rfl⟩
    · cases h
  · cases h

private theorem deltas_of_sound {c t : ConditionSummary} (sound : c.Sound) (sound' : t.Sound) :
    AreFinite (deltasOf c t).rates ∧ AreCarried (deltasOf c t).optionals := by
  obtain ⟨success, compile, tests, -, -, -⟩ := by
    simpa only [ConditionSummary.rates, List.forall_mem_cons] using sound.rates
  obtain ⟨success', compile', tests', used, share, -⟩ := by
    simpa only [ConditionSummary.rates, List.forall_mem_cons] using sound'.rates
  obtain ⟨-, -, -, tokens, -⟩ := by
    simpa only [ConditionSummary.countAverages, List.forall_mem_cons] using sound.averages
  obtain ⟨helpfulness, -, -, tokens', -⟩ := by
    simpa only [ConditionSummary.countAverages, List.forall_mem_cons] using sound'.averages
  constructor
  · simp only [AreFinite, Deltas.rates, List.forall_mem_cons]
    exact ⟨success'.isFinite_sub success, compile'.isFinite_sub compile, tests'.isFinite_sub tests,
      used.isFinite, share.isFinite, by simp⟩
  · have less : ∀ x ∈ difference c.averageTotalTokens t.averageTotalTokens, x.isFinite = true := by
      intro x worked
      obtain ⟨a, mine, b, other, rfl⟩ := exists_of_mem_difference worked
      exact (tokens' b other).isFinite_sub (tokens a mine)
    have quotient : ∀ x ∈ ratio c.averageTotalTokens t.averageTotalTokens, x.isFinite = true := by
      intro x worked
      obtain ⟨a, mine, b, other, positive, rfl⟩ := exists_of_mem_ratio worked
      exact (tokens' b other).isFinite_div (tokens a mine) positive (by decide) (by decide)
    simp only [AreCarried, Deltas.optionals, List.forall_mem_cons]
    exact ⟨fun x inside => (helpfulness x inside).isFinite, less, quotient, by simp⟩

private theorem mem_of_mem_withRuns {s : ConditionSummary} {arm : Option ConditionSummary}
    (h : s ∈ withRuns arm) : s ∈ arm :=
  (Option.mem_filter_iff.mp h).1

theorem finite_of_sound (sound : ∀ s ∈ control, s.Sound) (sound' : ∀ s ∈ treatment, s.Sound) :
    (of control treatment).Encodable ∧ AreCarried (of control treatment).outcome.optionals := by
  have runs {arm : Option ConditionSummary} (sound : ∀ s ∈ arm, s.Sound) :
      (arm.map (·.runCount)).getD 0 < UInt64.size := by
    cases arm with
    | none => exact by decide
    | some s => exact (sound s rfl).counts _ List.mem_cons_self
  have outcome : AreFinite (of control treatment).outcome.rates ∧
      AreCarried (of control treatment).outcome.optionals := by
    rw [of]
    dsimp only
    split
    · rename_i c t first second
      exact deltas_of_sound (sound c (mem_of_mem_withRuns first))
        (sound' t (mem_of_mem_withRuns second))
    · have known {arm : Option ConditionSummary} (sound : ∀ s ∈ arm, s.Sound)
          (rate : ConditionSummary → Float) (isRate : ∀ s, rate s ∈ s.rates) :
          ∀ x ∈ (withRuns arm).map rate, x.isFinite = true := by
        intro x given
        obtain ⟨s, counted, rfl⟩ := Option.map_eq_some_iff.mp given
        exact ((sound s (mem_of_mem_withRuns counted)).rates _ (isRate s)).isFinite
      refine ⟨by simp [AreFinite, Outcome.rates], ?_⟩
      simp only [AreCarried, Outcome.optionals, Insufficiency.optionals, insufficiencyOf,
        List.forall_mem_cons]
      exact ⟨known sound _ (by simp [ConditionSummary.rates]),
        known sound' _ (by simp [ConditionSummary.rates]),
        known sound' _ (by simp [ConditionSummary.rates]), by simp⟩
  refine ⟨⟨?_, outcome.1⟩, outcome.2⟩
  simp only [AreCounts, List.forall_mem_cons]
  exact ⟨runs sound, runs sound', by simp⟩

end Comparison

namespace Scorecard

variable {m : Manifest} {runs : List Run}

theorem sound_summaries (m : Manifest) (measured : ∀ r ∈ runs, r.Measured)
    (countable : Run.Countable runs) : ∀ s ∈ (ofRuns m runs).summaries, s.Sound := by
  intro s listed
  obtain ⟨c, -, rfl⟩ := List.mem_map.mp listed
  exact ConditionSummary.sound_ofRuns _ _
    (fun r member => measured r (List.mem_of_mem_filter member))
    (countable.filter _)

theorem finite_primary (m : Manifest) (measured : ∀ r ∈ runs, r.Measured)
    (countable : Run.Countable runs) : (ofRuns m runs).primary.Encodable ∧
      AreCarried (ofRuns m runs).primary.outcome.optionals := by
  have sound := sound_summaries m measured countable
  apply Comparison.finite_of_sound
  all_goals
    intro s found
    obtain ⟨c, -, found⟩ := Option.bind_eq_some_iff.mp found
    exact sound s (List.mem_of_find?_eq_some found)

theorem finite_byTask (m : Manifest) (measured : ∀ r ∈ runs, r.Measured)
    (countable : Run.Countable runs) : ∀ t ∈ (ofRuns m runs).byTask, t.comparison.Encodable ∧
      AreCarried t.comparison.outcome.optionals := by
  intro e listed
  obtain ⟨t, -, rfl⟩ := List.mem_map.mp listed
  apply Comparison.finite_of_sound
  all_goals
    intro s found
    obtain ⟨c, -, rfl⟩ := Option.map_eq_some_iff.mp found
    exact ConditionSummary.sound_ofRuns _ _
      (fun r member => measured r (List.mem_of_mem_filter (List.mem_of_mem_filter member)))
      ((countable.filter _).filter _)

end Scorecard

namespace ScoreReport

variable {r : ScoreReport}

/-- A report whose summaries are sound, and whose comparisons lose nothing in a document. -/
structure Sound (r : ScoreReport) : Prop where
  total : r.totalRuns < UInt64.size
  summaries : ∀ s ∈ r.summaries, s.Sound
  primary : r.primary.Encodable ∧ AreCarried r.primary.outcome.optionals
  byTask : ∀ t ∈ r.byTask, t.comparison.Encodable ∧ AreCarried t.comparison.outcome.optionals

theorem Sound.encodable (h : r.Sound) : r.Encodable :=
  ⟨h.total, fun s listed => (h.summaries s listed).encodable, h.primary.1,
    fun t listed => (h.byTask t listed).1⟩

theorem sound_ofScorecard (m : Manifest) (sha256 now : String) {runs : List Run} (out : Path)
    (measured : ∀ r ∈ runs, r.Measured) (countable : Run.Countable runs) :
    (ofScorecard m sha256 now runs (Scorecard.ofRuns m runs) out).Sound :=
  ⟨((Run.countable_iff runs).mp countable).1, Scorecard.sound_summaries m measured countable,
    Scorecard.finite_primary m measured countable, Scorecard.finite_byTask m measured countable⟩

/-- The document of a sound report stands for the report where each average of durations is
finite. -/
theorem Sound.decode_toJson_iff (h : r.Sound) : decode r.toJson = .ok r ↔
    ∀ s ∈ r.summaries, ∀ x ∈ s.averageDurationSeconds, x.isFinite = true := by
  rw [decode_toJson h.encodable, Except.ok.injEq]
  constructor
  · intro same s listed
    have summaries : r.summaries.map ConditionSummary.carried = r.summaries.map id :=
      (congrArg ScoreReport.summaries same).trans (List.map_id _).symm
    exact ConditionSummary.isFinite_of_carried_eq (List.map_inj_left.mp summaries s listed)
  · intro finite
    apply carried_eq_self
    simp only [AreCarried, optionals, List.forall_mem_append, List.forall_mem_flatMap]
    refine ⟨⟨fun s listed => ?_, h.primary.2⟩, fun t listed => (h.byTask t listed).2⟩
    exact ((h.summaries s listed).areCarried_iff).mpr (finite s listed)

end ScoreReport

section Documents

theorem Json.ofOption_ofFloat_eq_null_iff (o : Option Float) :
    Json.ofOption Json.ofFloat o = .null ↔ ∀ x ∈ o, x.isFinite = false := by
  cases o with
  | none => simp [Json.ofOption]
  | some x =>
    rw [Json.ofOption, Json.ofFloat]
    cases finite : x.isFinite <;> simp [finite]

/-- What the document of a summary of runs says to be missing.  The average of the durations is
missing without runs, and also where the durations add up to too much. -/
structure ConditionSummary.NamesMissing (runs : List Run)
    (members : List (String × Json)) : Prop where
  runCount : Json.member? "run_count" members = some (Json.ofNat runs.length)
  duration : Json.member? "average_duration_seconds" members = some .null ↔
    runs = [] ∨ (Run.totalDuration runs).isFinite = false
  input : Json.member? "average_input_tokens" members = some .null ↔
    ∀ r ∈ runs, r.tokenUsage.bind (·.input) = none
  output : Json.member? "average_output_tokens" members = some .null ↔
    ∀ r ∈ runs, r.tokenUsage.bind (·.output) = none
  total : Json.member? "average_total_tokens" members = some .null ↔
    ∀ r ∈ runs, r.tokenUsage.bind (·.effectiveTotal) = none

open ConditionSummary in
/-- The document of a sound summary is missing the averages that runs do not have, and no other but
that of durations. -/
theorem ConditionSummary.namesMissing_toJson (c : Condition) (t : Tooling) {runs : List Run}
    (measured : ∀ r ∈ runs, r.Measured) (countable : Run.Countable runs) :
    ∃ members, (ofRuns c t runs).toJson = .object members ∧ NamesMissing runs members := by
  obtain ⟨few, -⟩ := (Run.countable_iff runs).mp countable
  have average {count : Run → Option Nat} (small : ∀ r ∈ runs, ∀ n ∈ count r, n < UInt64.size) :
      Json.ofOption Json.ofFloat (meanCount count runs) = .null ↔ ∀ r ∈ runs, count r = none := by
    rw [Json.ofOption_ofFloat_eq_null_iff, ← meanCount_eq_none_iff]
    constructor
    · intro infinite
      refine Option.eq_none_iff_forall_not_mem.mpr fun x worked => ?_
      have finite := (inRange_meanCount small few x worked).isFinite
      exact Bool.false_ne_true ((infinite x worked).symm.trans finite)
    · intro none x worked
      rw [none] at worked
      cases worked
  have duration : Json.ofOption Json.ofFloat (mean (runs.map (·.durationSeconds))) = .null ↔
      runs = [] ∨ (Run.totalDuration runs).isFinite = false := by
    rw [Json.ofOption_ofFloat_eq_null_iff]
    have finite := isFinite_mean_durations measured few
    have absent : mean (runs.map (·.durationSeconds)) = none ↔ runs = [] :=
      (mean_eq_none_iff _).trans List.map_eq_nil_iff
    cases worked : mean (runs.map (·.durationSeconds)) with
    | none => simp [absent.mp worked]
    | some x =>
      have some : runs ≠ [] := by
        intro none
        rw [absent.mpr none] at worked
        cases worked
      simp [some, ← finite x worked]
  refine ⟨_, rfl, rfl, ?_, ?_, ?_, ?_⟩
  · exact (Option.some_inj).trans duration
  · exact (Option.some_inj).trans (average fun r member => (measured r member).input)
  · exact (Option.some_inj).trans (average fun r member => (measured r member).output)
  · exact (Option.some_inj).trans (average fun r member => (measured r member).effectiveTotal)

theorem measured_of_loadRuns {σ : Type} {store : Store (StateM σ)} {dir : Path} {pattern : Pattern}
    {runs : List Run} {s t : σ} (loaded : (loadRuns store dir pattern).Gives s runs t) :
    ∀ r ∈ runs, r.Measured := by
  obtain ⟨documents, -, read⟩ := (loadRuns_gives_iff _ _ _ _ _ _).mp loaded
  have reads := ((Run.ofDocuments_eq_ok_iff _ _ _).mp read).1
  intro r member
  obtain ⟨document, -, made⟩ := exists_mem_of_forall₂ reads member
  obtain ⟨-, decoded, usable⟩ := (Run.ofDocument_eq_ok_iff _ _ _).mp made
  obtain ⟨finite, notNegative⟩ := (Run.isDuration_iff _).mp usable.hasDuration
  have tokens := Run.encodable_tokens_of_decode decoded
  have small {count : TokenUsage → Option Nat}
      (bounded : ∀ u : TokenUsage, u.Encodable → ∀ n ∈ count u, n < UInt64.size) :
      ∀ n ∈ r.tokenUsage.bind count, n < UInt64.size := by
    intro n given
    obtain ⟨u, used, counted⟩ := Option.bind_eq_some_iff.mp given
    exact bounded u (tokens u used) n counted
  exact ⟨finite, notNegative, small fun _ h => h.input, small fun _ h => h.output,
    small fun _ h => h.total⟩

end Documents

section Reports

open Attempt

variable {σ : Type} {store : Store (StateM σ)} {dir : Path} {pattern : Pattern} {runs : List Run}
  {s t : σ}

/-- Whatever manifest loaded runs are scored for, the document that is saved names the averages of
tokens that no run of an arm reports, and no others, as missing.  It does so with the average of the
durations where an arm has no runs, and also where the sum of their durations is infinite.  It is
loaded as it was when every float in it comes back from the store, which in memory each does; and it
then stands for the report that was given, unless there is such an infinite sum. -/
theorem reportScore_saves (kind : Store.Kind) (loaded : (loadRuns store dir pattern).Gives s runs t)
    (countable : Run.Countable runs) {l : LoadedManifest} {out : Path} {w w' : Workspace}
    {r : ScoreReport} (scored : (reportScore kind.store l runs out).Gives w r w') :
    ∃ members arms, r.toJson = .object members ∧ kind.Keeps w' out r.toJson ∧
      Json.member? "condition_summaries" members = some (.array arms) ∧
      List.Forall₂ (fun c arm => ∃ named, arm = Json.object named ∧
        ConditionSummary.NamesMissing (Scorecard.runsOf c runs) named) l.manifest.conditions arms ∧
      ((kind.store.load out).Gives w' r.toJson w' ↔
        ∀ x ∈ r.toJson.floats, kind.reread? x = some x) ∧
      ((kind.store.loadAs ScoreReport.decode out).Gives w' r w' ↔
        (∀ x ∈ r.toJson.floats, kind.reread? x = some x) ∧
        ∀ c ∈ l.manifest.conditions,
          (Run.totalDuration (Scorecard.runsOf c runs)).isFinite = true) := by
  have measured := measured_of_loadRuns loaded
  obtain ⟨now, rfl, saved⟩ : ∃ now, r = ScoreReport.ofScorecard l.manifest l.sha256 now runs
      (Scorecard.ofRuns l.manifest runs) out ∧
      (kind.store.save out r.toJson).Gives w () w' := by
    simp only [reportScore, gives_bind_iff, gives_during_iff, gives_liftM_iff,
      gives_pure_iff] at scored
    obtain ⟨now, w, ⟨-, rfl⟩, _, _, saved, rfl, rfl⟩ := scored
    exact ⟨now, rfl, saved⟩
  have sound := ScoreReport.sound_ofScorecard l.manifest l.sha256 now out measured countable
  have keeps := Store.Kind.keeps_of_save saved
  refine ⟨_, _, rfl, keeps, rfl, ?_,
    Store.Kind.load_gives_self_iff keeps (ScoreReport.readable_toJson sound.encodable), ?_⟩
  · show List.Forall₂ _ _ (List.map _ (List.map _ _))
    rw [List.map_map, List.forall₂_map_right_iff, List.forall₂_same]
    intro c _
    exact ConditionSummary.namesMissing_toJson c _
      (fun r member => measured r (List.mem_of_mem_filter member)) (countable.filter _)
  · rw [ScoreReport.loadAs_gives_self_iff sound.encodable keeps, sound.decode_toJson_iff]
    refine and_congr_right fun _ => ?_
    show (∀ s ∈ l.manifest.conditions.map _, _) ↔ _
    rw [List.forall_mem_map]
    refine forall₂_congr fun c _ => ?_
    exact ConditionSummary.forall_isFinite_mean_iff
      (fun r member => measured r (List.mem_of_mem_filter member))
      ((Run.countable_iff _).mp (countable.filter _)).1

section Samples

private def overlongRun (id : String) : Run :=
  { Run.ofPair id "tools" none [] with durationSeconds := 1.5e308 }

private def overlongRuns : List Run :=
  [overlongRun "1", overlongRun "2"]

private def overlong : Workspace where
  disk := Disk.empty ["work"]
  documents := [(⟨"manifest.json"⟩, Manifest.pair.toJson),
    (⟨"runs/1.json"⟩, (overlongRun "1").toJson), (⟨"runs/2.json"⟩, (overlongRun "2").toJson)]
  clock := "now"
  answered := 0

private def overlongManifest : LoadedManifest :=
  ⟨Manifest.pair, ⟨"manifest.json"⟩, Manifest.pair.toJson.sha256⟩

private def overlongReport : ScoreReport :=
  .ofScorecard Manifest.pair overlongManifest.sha256 "now" overlongRuns
    (Scorecard.ofRuns Manifest.pair overlongRuns) ⟨"score.json"⟩

private def overlongScored : Workspace :=
  { overlong with documents := overlong.documents.insert ⟨"score.json"⟩ overlongReport.toJson }

private theorem overlong_loads :
    (loadManifest Store.inMemory ⟨"manifest.json"⟩).Gives overlong overlongManifest overlong ∧
      (loadRuns Store.inMemory ⟨"runs"⟩ Pattern.documentNames).Gives overlong overlongRuns
        overlong := by
  have manifest : LoadedManifest.ofDocument ⟨"manifest.json"⟩ Manifest.pair.toJson =
      .ok overlongManifest := LoadedManifest.ofDocument_toJson _ Manifest.loadable_pair (by decide)
  have runs : ((loadRuns Store.inMemory ⟨"runs"⟩ Pattern.documentNames).outcome
      overlong).1.toOption = some overlongRuns := by decide +kernel
  exact ⟨(loadManifest_gives_iff _ _ _ _ _).mpr ⟨_, rfl, manifest⟩, gives_of_toOption_eq_some runs⟩

private theorem overlong_scores :
    (reportScore Store.inMemory overlongManifest overlongRuns ⟨"score.json"⟩).Gives overlong
      overlongReport overlongScored :=
  rfl

theorem reportScore_saves_overlong :
    (loadRuns Store.inMemory ⟨"runs"⟩ Pattern.documentNames).Gives overlong overlongRuns overlong ∧
    Run.Countable overlongRuns ∧ ∃ r w' members arms,
      (reportScore Store.inMemory overlongManifest overlongRuns ⟨"score.json"⟩).Gives
        overlong r w' ∧
      r.toJson = .object members ∧ (Store.inMemory.load ⟨"score.json"⟩).Gives w' r.toJson w' ∧
      Json.member? "condition_summaries" members = some (.array arms) ∧
      List.Forall₂ (fun c arm => ∃ named, arm = Json.object named ∧
        ConditionSummary.NamesMissing (Scorecard.runsOf c overlongRuns) named)
        Manifest.pair.conditions arms := by
  have countable : Run.Countable overlongRuns := by decide
  obtain ⟨members, arms, document, -, summaries, missing, loads, -⟩ :=
    reportScore_saves .inMemory overlong_loads.2 countable overlong_scores
  exact ⟨overlong_loads.2, countable, _, _, members, arms, overlong_scores, document,
    loads.mpr fun _ _ => rfl, summaries, missing⟩

/-- Two runs whose durations are loaded can have no average of them in the document, which then is
not what was reported. -/
theorem reportScore_loses_durations :
    (loadManifest Store.inMemory ⟨"manifest.json"⟩).Gives overlong overlongManifest overlong ∧
    (loadRuns Store.inMemory ⟨"runs"⟩ Pattern.documentNames).Gives overlong overlongRuns overlong ∧
    ∃ r w' members arms named,
      (reportScore Store.inMemory overlongManifest overlongRuns ⟨"score.json"⟩).Gives
        overlong r w' ∧
      (Store.inMemory.load ⟨"score.json"⟩).Gives w' (.object members) w' ∧
      Json.member? "condition_summaries" members = some (.array arms) ∧ .object named ∈ arms ∧
      Json.member? "run_count" named = some (Json.ofNat 2) ∧
      Json.member? "average_duration_seconds" named = some .null ∧
      ¬ (Store.inMemory.loadAs ScoreReport.decode ⟨"score.json"⟩).Gives w' r w' := by
  have sound : overlongReport.Sound := ScoreReport.sound_ofScorecard _ _ _ _
    (measured_of_loadRuns overlong_loads.2) (by decide)
  have saved : (Store.Kind.inMemory.store.save ⟨"score.json"⟩ overlongReport.toJson).Gives
      overlong () overlongScored := rfl
  have keeps := Store.Kind.keeps_of_save saved
  have loads := (Store.Kind.load_gives_self_iff keeps
    (ScoreReport.readable_toJson sound.encodable)).mpr fun _ _ => rfl
  obtain ⟨average, worked, infinite⟩ : ∃ x, ConditionSummary.mean
      (overlongRuns.map (·.durationSeconds)) = some x ∧ x.isFinite = false := by
    have : (ConditionSummary.mean (overlongRuns.map (·.durationSeconds))).any (!·.isFinite) =
        true := by
      decide +kernel
    obtain ⟨x, worked, infinite⟩ := (Option.any_eq_true _ _).mp this
    exact ⟨x, worked, by simpa using infinite⟩
  have missing : Json.ofOption Json.ofFloat
      (ConditionSummary.mean (overlongRuns.map (·.durationSeconds))) = .null := by
    rw [Json.ofOption_ofFloat_eq_null_iff, worked]
    rintro _ ⟨⟩
    exact infinite
  refine ⟨overlong_loads.1, overlong_loads.2, overlongReport, overlongScored, _, _, _,
    overlong_scores, loads, rfl, List.mem_cons_of_mem _ List.mem_cons_self, rfl,
    congrArg some missing, fun read => ?_⟩
  have decoded := ((ScoreReport.loadAs_gives_self_iff sound.encodable keeps).mp read).2
  have finite := sound.decode_toJson_iff.mp decoded _ (List.mem_cons_of_mem _ List.mem_cons_self)
    average worked
  exact Bool.false_ne_true (infinite.symm.trans finite)

end Samples

end Reports
end ToolTrial
