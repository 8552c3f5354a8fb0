import ToolTrial.Proofs.Rereading
import ToolTrial.Proofs.ScoreDocument

/-!
Reports on scores that have gone through a store.  Each float of the report has become what the
store gives back for it, and an optional one that is not finite is gone.
-/

set_option autoImplicit false
set_option relaxedAutoImplicit false

namespace ToolTrial

open Json (IsNumber)

/-- Changes of floats that make none finite and none infinite. -/
def KeepsFinite (f : Float → Float) : Prop := ∀ x, (f x).isFinite = x.isFinite

namespace Json

variable {f : Float → Float}

theorem mapFloats_ofFloat (keeps : KeepsFinite f) (x : Float) :
    (ofFloat x).mapFloats f = ofFloat (f x) := by
  rw [ofFloat, ofFloat, keeps x]
  split <;> rfl

theorem mapFloats_ofOption_ofFloat (keeps : KeepsFinite f) (o : Option Float) :
    (ofOption ofFloat o).mapFloats f = ofOption ofFloat (o.map f) := by
  cases o with
  | none => rfl
  | some x => exact mapFloats_ofFloat keeps x

theorem mapFloats_ofOption_text (o : Option String) :
    (ofOption .text o).mapFloats f = ofOption .text o := by
  cases o <;> rfl

theorem ofOption_ofFloat_carried (o : Option Float) :
    ofOption ofFloat (carried o) = ofOption ofFloat o := by
  cases o with
  | none => rfl
  | some x =>
    rw [carried, Option.filter_some]
    cases finite : x.isFinite <;> simp [ofOption, ofFloat, finite]

end Json

namespace ConditionSummary

variable {f : Float → Float}

def mapFloats (f : Float → Float) (s : ConditionSummary) : ConditionSummary :=
  { s with
    successRate := f s.successRate
    compileRate := f s.compileRate
    testsRate := f s.testsRate
    averageDurationSeconds := s.averageDurationSeconds.map f
    toolUsedRate := f s.toolUsedRate
    toolCallShare := f s.toolCallShare
    averageHelpfulness := s.averageHelpfulness.map f
    averageInputTokens := s.averageInputTokens.map f
    averageOutputTokens := s.averageOutputTokens.map f
    averageTotalTokens := s.averageTotalTokens.map f }

theorem toJson_mapFloats (keeps : KeepsFinite f) (s : ConditionSummary) :
    (s.mapFloats f).toJson = s.toJson.mapFloats f := by
  simp only [toJson, mapFloats, Json.mapFloats, Json.mapMembers, Json.ofNat,
    Json.mapFloats_ofFloat keeps, Json.mapFloats_ofOption_ofFloat keeps]

theorem toJson_carried (s : ConditionSummary) : s.carried.toJson = s.toJson := by
  simp only [toJson, carried, Json.ofOption_ofFloat_carried]

theorem Encodable.mapFloats {s : ConditionSummary} (h : s.Encodable) (keeps : KeepsFinite f) :
    (s.mapFloats f).Encodable := by
  refine ⟨h.counts, ?_⟩
  have rates : (s.mapFloats f).rates = s.rates.map f := rfl
  rw [AreFinite, rates, List.forall_mem_map]
  exact fun x listed => (keeps x).trans (h.rates x listed)

end ConditionSummary

namespace Outcome

variable {f : Float → Float}

def mapFloats (f : Float → Float) : Outcome → Outcome
  | .computed d => .computed
    { successRate := f d.successRate
      compileRate := f d.compileRate
      testsRate := f d.testsRate
      toolUsedRate := f d.toolUsedRate
      toolCallShare := f d.toolCallShare
      helpfulness := d.helpfulness.map f
      totalTokens := d.totalTokens.map f
      totalTokensRatio := d.totalTokensRatio.map f }
  | .insufficient d => .insufficient
    { d with
      controlSuccessRate := d.controlSuccessRate.map f
      treatmentSuccessRate := d.treatmentSuccessRate.map f
      treatmentToolUsedRate := d.treatmentToolUsedRate.map f }

theorem rates_mapFloats (o : Outcome) : (o.mapFloats f).rates = o.rates.map f := by
  cases o <;> rfl

theorem toMembers_mapFloats (keeps : KeepsFinite f) (o : Outcome) :
    (o.mapFloats f).toMembers = Json.mapMembers f o.toMembers := by
  cases o <;>
    simp only [toMembers, mapFloats, Deltas.toMembers, Insufficiency.toMembers, Json.mapMembers,
      Json.mapFloats, Json.mapFloats_ofFloat keeps, Json.mapFloats_ofOption_ofFloat keeps, status]

theorem toMembers_carried (o : Outcome) : o.carried.toMembers = o.toMembers := by
  cases o <;>
    simp only [toMembers, carried, Deltas.toMembers, Deltas.carried, Insufficiency.toMembers,
      Insufficiency.carried, Json.ofOption_ofFloat_carried, status]

end Outcome

namespace Comparison

variable {f : Float → Float}

def mapFloats (f : Float → Float) (c : Comparison) : Comparison :=
  { c with outcome := c.outcome.mapFloats f }

theorem sufficientData_mapFloats (c : Comparison) :
    (c.mapFloats f).sufficientData = c.sufficientData := by
  rw [sufficientData, sufficientData, mapFloats]
  cases c.outcome <;> rfl

theorem sufficientData_carried (c : Comparison) : c.carried.sufficientData = c.sufficientData := by
  rw [sufficientData, sufficientData, carried]
  cases c.outcome <;> rfl

theorem toJson_mapFloats (keeps : KeepsFinite f) (c : Comparison) :
    (c.mapFloats f).toJson = c.toJson.mapFloats f := by
  rw [toJson, toJson, sufficientData_mapFloats]
  simp only [mapFloats, Outcome.toMembers_mapFloats keeps, Json.mapFloats, Json.mapMembers_eq,
    List.map_append, List.map_cons, List.map_nil, Json.mapFloats_ofOption_text, Json.ofNat]

theorem toJson_carried (c : Comparison) : c.carried.toJson = c.toJson := by
  rw [toJson, toJson, sufficientData_carried]
  simp only [carried, Outcome.toMembers_carried]

theorem Encodable.mapFloats {c : Comparison} (h : c.Encodable) (keeps : KeepsFinite f) :
    (c.mapFloats f).Encodable := by
  refine ⟨h.counts, ?_⟩
  have rates : (c.mapFloats f).outcome.rates = c.outcome.rates.map f := Outcome.rates_mapFloats _
  rw [AreFinite, rates, List.forall_mem_map]
  exact fun x listed => (keeps x).trans (h.rates x listed)

end Comparison

def TaskComparison.mapFloats (f : Float → Float) (t : TaskComparison) : TaskComparison :=
  { t with comparison := t.comparison.mapFloats f }

namespace ScoreReport

variable {f : Float → Float} {r : ScoreReport}

def mapFloats (f : Float → Float) (r : ScoreReport) : ScoreReport :=
  { r with
    summaries := r.summaries.map (ConditionSummary.mapFloats f)
    primary := r.primary.mapFloats f
    byTask := r.byTask.map (TaskComparison.mapFloats f) }

theorem toJson_mapFloats (keeps : KeepsFinite f) (r : ScoreReport) :
    (r.mapFloats f).toJson = r.toJson.mapFloats f := by
  have tasks (t : TaskComparison) : (t.mapFloats f).toJson = t.toJson.mapFloats f := by
    simp only [TaskComparison.toJson, TaskComparison.mapFloats, Comparison.toJson_mapFloats keeps,
      Json.mapFloats, Json.mapMembers]
  simp only [toJson, mapFloats, Comparison.toJson_mapFloats keeps, Json.mapFloats, Json.mapMembers,
    Json.mapItems_eq, List.map_map, Function.comp_def,
    ConditionSummary.toJson_mapFloats keeps, tasks,
    Json.ofNat, Path.toJson]

theorem toJson_carried (r : ScoreReport) : r.carried.toJson = r.toJson := by
  have tasks (t : TaskComparison) : t.carried.toJson = t.toJson := by
    simp only [TaskComparison.toJson, TaskComparison.carried, Comparison.toJson_carried]
  simp only [toJson, carried, Comparison.toJson_carried, List.map_map, Function.comp_def,
    ConditionSummary.toJson_carried, tasks]

theorem Encodable.mapFloats (h : r.Encodable) (keeps : KeepsFinite f) :
    (r.mapFloats f).Encodable :=
  ⟨h.total, List.forall_mem_map.mpr fun s listed => (h.summaries s listed).mapFloats keeps,
    h.primary.mapFloats keeps,
    List.forall_mem_map.mpr fun t listed => (h.byTask t listed).mapFloats keeps⟩

/-- A report as a store of some kind gives it back. -/
def reloaded (kind : Store.Kind) (r : ScoreReport) : ScoreReport :=
  (r.mapFloats kind.reread).carried

section Stores

variable {kind : Store.Kind} {w : Workspace} {path : Path} {r' : ScoreReport}

private theorem decode_mapFloats (h : r.Encodable) (kind : Store.Kind) :
    decode (r.toJson.mapFloats kind.reread) = .ok (r.reloaded kind) := by
  have keeps : KeepsFinite kind.reread := kind.isFinite_reread
  rw [← toJson_mapFloats keeps, decode_toJson (h.mapFloats keeps), reloaded]

/-- A report whose document is kept is loaded as the store gives back its floats. -/
theorem loadAs_gives_iff (h : r.Encodable) (keeps : kind.Keeps w path r.toJson) :
    (kind.store.loadAs decode path).Gives w r' w ↔
      (∀ x ∈ r.toJson.floats, (kind.reread? x).isSome = true) ∧ r' = r.reloaded kind := by
  rw [Store.loadAs_gives_iff]
  simp only [Store.Kind.load_gives_iff keeps (readable_toJson h)]
  constructor
  · rintro ⟨_, ⟨read, rfl⟩, decoded⟩
    rw [decode_mapFloats h, Except.ok.injEq] at decoded
    exact ⟨read, decoded.symm⟩
  · rintro ⟨read, rfl⟩
    exact ⟨_, ⟨read, rfl⟩, decode_mapFloats h kind⟩

theorem loadAs_gives_self_iff (h : r.Encodable) (keeps : kind.Keeps w path r.toJson) :
    (kind.store.loadAs decode path).Gives w r w ↔
      (∀ x ∈ r.toJson.floats, kind.reread? x = some x) ∧ decode r.toJson = .ok r := by
  rw [← Store.Kind.load_gives_self_iff keeps (readable_toJson h)]
  constructor
  · intro loaded
    obtain ⟨read, same⟩ := (loadAs_gives_iff h keeps).mp loaded
    -- the document of what was loaded is the one that was read
    have document : r.toJson = r.toJson.mapFloats kind.reread :=
      calc r.toJson = (r.reloaded kind).toJson := congrArg toJson same
        _ = (r.mapFloats kind.reread).toJson := toJson_carried _
        _ = r.toJson.mapFloats kind.reread := toJson_mapFloats kind.isFinite_reread r
    refine ⟨(Store.Kind.load_gives_iff keeps (readable_toJson h)).mpr ⟨read, document⟩, ?_⟩
    have decoded := decode_mapFloats h kind
    rwa [← document, ← same] at decoded
  · rintro ⟨loads, decoded⟩
    exact (Store.loadAs_gives_iff _ _ _ _ _).mpr ⟨_, loads, decoded⟩

end Stores

end ScoreReport
end ToolTrial
