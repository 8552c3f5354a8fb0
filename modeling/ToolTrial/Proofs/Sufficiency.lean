import ToolTrial.Proofs.Gate

/-!
When arms can be compared, and what is said when they cannot.  A comparison has two roles, each
taken by the first arm of its kind.  It is computed when both are taken by arms with runs; otherwise
it keeps the numbers of an arm that has runs, and names the roles that are not taken or, if all are,
the arms without runs.  So there is always a reason, and no gate has to make one up.
-/

set_option autoImplicit false
set_option relaxedAutoImplicit false

namespace ToolTrial

/-- What an arm is in a comparison. -/
inductive Role
  | control
  | treatment
deriving DecidableEq, Repr

namespace Role

def both : List Role := [.control, .treatment]

def hasTools : Role → Bool
  | .control => false
  | .treatment => true

def name : Role → String
  | .control => "control"
  | .treatment => "treatment"

variable (m : Manifest) (runs : List Run)

/-- The arm that takes a role: the first one of its kind, in the order of declaration. -/
def arm? (role : Role) : Option Condition :=
  (m.conditions.filter fun c => c.toolsEnabled == role.hasTools).head?

def HasRuns (role : Role) : Prop :=
  ∃ c, role.arm? m = some c ∧ ∃ r ∈ runs, Identifier.same r.conditionId c.id = true

/-- The roles that no arm takes. -/
def vacant : List Role :=
  both.filter fun role => (role.arm? m).isNone

/-- The arms that take a role without any runs, each under its role. -/
def idle : List String :=
  both.filterMap fun role =>
    ((role.arm? m).filter fun c => runs.all fun r => !Identifier.same r.conditionId c.id).map
      fun c => role.name ++ " " ++ Text.quoted c.id

/-- Why there is nothing to compare: roles that are vacant, or else arms that are idle. -/
def reason : String :=
  if vacant m = [] then
    "no runs recorded for " ++ Text.join " and " (idle m runs) ++ "; collect more data"
  else "no " ++ Text.join " or " ((vacant m).map name) ++ " condition declared"

theorem HasRuns.mono {m : Manifest} {part whole : List Run} (within : part ⊆ whole) {role : Role}
    (h : role.HasRuns m part) : role.HasRuns m whole := by
  obtain ⟨c, declared, r, member, named⟩ := h
  exact ⟨c, declared, r, within member, named⟩

theorem arm?_control : control.arm? m = m.primaryControl? := by
  simp [arm?, Manifest.primaryControl?, List.head?_filter, hasTools]

theorem arm?_treatment : treatment.arm? m = m.primaryTreatment? := by
  simp [arm?, Manifest.primaryTreatment?, List.head?_filter, hasTools]

theorem toolsEnabled_of_arm? {m : Manifest} {role : Role} {c : Condition}
    (declared : role.arm? m = some c) : c.toolsEnabled = role.hasTools := by
  have member := List.mem_of_mem_head? (Option.mem_def.mpr declared)
  exact beq_iff_eq.mp (List.mem_filter.mp member).2

end Role

/-- The numbers and the reason that a comparison gives in place of a result. -/
structure Insufficiency.Explains (m : Manifest) (runs : List Run)
    (data : Insufficiency) : Prop where
  controlSuccessRate : data.controlSuccessRate.isSome = true ↔ Role.control.HasRuns m runs
  treatmentSuccessRate : data.treatmentSuccessRate.isSome = true ↔ Role.treatment.HasRuns m runs
  treatmentToolUsedRate : data.treatmentToolUsedRate.isSome = true ↔ Role.treatment.HasRuns m runs
  note : data.note = Role.reason m runs

/-- A comparison of the arms that take the two roles, over some runs. -/
structure Comparison.Weighs (m : Manifest) (runs : List Run) (c : Comparison) : Prop where
  controlId : c.controlId = (Role.control.arm? m).map (·.id)
  treatmentId : c.treatmentId = (Role.treatment.arm? m).map (·.id)
  computed_iff : (∃ deltas, c.outcome = .computed deltas) ↔ ∀ role : Role, role.HasRuns m runs
  otherwise : (¬ ∀ role : Role, role.HasRuns m runs) →
    ∃ data, c.outcome = .insufficient data ∧ data.Explains m runs

namespace Comparison

theorem exists_computed_iff (c : Comparison) :
    (∃ deltas, c.outcome = .computed deltas) ↔ c.sufficientData = true := by
  rw [sufficientData]
  cases c.outcome <;> simp

theorem note_eq_none_iff (c : Comparison) : c.note = none ↔ c.sufficientData = true := by
  rw [note, sufficientData]
  cases c.outcome <;> simp

theorem outcome_of_insufficient {control treatment : Option ConditionSummary}
    (lacking : (of control treatment).sufficientData = false) :
    (of control treatment).outcome = .insufficient (insufficiencyOf control treatment) := by
  rw [sufficientData_of] at lacking
  rw [of]
  cases first : withRuns control with
  | none => rfl
  | some c =>
    cases second : withRuns treatment with
    | none => rfl
    | some t => simp [first, second] at lacking

end Comparison

namespace Scorecard

open Comparison (withRuns)

variable (m : Manifest) (runs : List Run)

def roleSummary (role : Role) : Option ConditionSummary :=
  (role.arm? m).map (summaryOf m runs)

theorem isSome_withRuns_roleSummary (role : Role) :
    (withRuns (roleSummary m runs role)).isSome = true ↔ role.HasRuns m runs :=
  isSome_withRuns_iff m runs (role.arm? m)

theorem compareArms_eq : compareArms m runs =
    Comparison.of (roleSummary m runs .control) (roleSummary m runs .treatment) := by
  rw [compareArms, ← Role.arm?_control, ← Role.arm?_treatment]
  rfl

private theorem roleOf_summaryOf {role : Role} {c : Condition} (declared : role.arm? m = some c) :
    Comparison.roleOf (summaryOf m runs c) = role.name ++ " " ++ Text.quoted c.id := by
  have enabled : (summaryOf m runs c).toolsEnabled = role.hasTools :=
    Role.toolsEnabled_of_arm? declared
  rw [Comparison.roleOf, enabled]
  cases role <;> rfl

private theorem runCount_beq_zero (c : Condition) : ((summaryOf m runs c).runCount == 0) =
    runs.all fun r => !Identifier.same r.conditionId c.id := by
  rw [Bool.eq_iff_iff, beq_iff_eq]
  simp [summaryOf, ConditionSummary.ofRuns, runsOf]

private theorem map_roleOf_eq_idle {c t : Condition} (control : Role.control.arm? m = some c)
    (treatment : Role.treatment.arm? m = some t) :
    ([summaryOf m runs c, summaryOf m runs t].filter fun s => s.runCount == 0).map
      Comparison.roleOf = Role.idle m runs := by
  have first := roleOf_summaryOf m runs control
  have second := roleOf_summaryOf m runs treatment
  simp only [Role.idle, Role.both, List.filterMap_cons, List.filterMap_nil, List.filter_cons,
    List.filter_nil, control, treatment, Option.filter_some, runCount_beq_zero]
  cases runs.all fun r => !Identifier.same r.conditionId c.id <;>
    cases runs.all fun r => !Identifier.same r.conditionId t.id <;> simp [first, second]

theorem noteOf_roleSummary :
    Comparison.noteOf (roleSummary m runs .control) (roleSummary m runs .treatment) =
      Role.reason m runs := by
  rw [Role.reason, Role.vacant, Role.both, roleSummary, roleSummary]
  simp only [List.filter_cons, List.filter_nil]
  cases control : Role.control.arm? m with
  | none => cases treatment : Role.treatment.arm? m <;> rfl
  | some c =>
    cases treatment : Role.treatment.arm? m with
    | none => rfl
    | some t =>
      rw [← map_roleOf_eq_idle m runs control treatment]
      rfl

private theorem map_conditionId_roleSummary (role : Role) :
    (roleSummary m runs role).map (·.conditionId) = (role.arm? m).map (·.id) := by
  rw [roleSummary, Option.map_map]
  rfl

theorem weighs_compareArms : (compareArms m runs).Weighs m runs := by
  have control := isSome_withRuns_roleSummary m runs .control
  have treatment := isSome_withRuns_roleSummary m runs .treatment
  rw [compareArms_eq]
  have sufficient : (Comparison.of (roleSummary m runs .control)
      (roleSummary m runs .treatment)).sufficientData = true ↔
        ∀ role : Role, role.HasRuns m runs := by
    rw [Comparison.sufficientData_of, Bool.and_eq_true, control, treatment]
    exact ⟨fun ⟨c, t⟩ role => by cases role <;> assumption, fun all => ⟨all _, all _⟩⟩
  refine ⟨map_conditionId_roleSummary m runs _, map_conditionId_roleSummary m runs _,
    (Comparison.exists_computed_iff _).trans sufficient, fun lacking => ?_⟩
  rw [← sufficient, Bool.not_eq_true] at lacking
  refine ⟨_, Comparison.outcome_of_insufficient lacking, ?_⟩
  exact ⟨by rw [Comparison.insufficiencyOf, Option.isSome_map, control],
    by rw [Comparison.insufficiencyOf, Option.isSome_map, treatment],
    by rw [Comparison.insufficiencyOf, Option.isSome_map, treatment], noteOf_roleSummary m runs⟩

end Scorecard

/-- A scorecard whose comparisons say all that runs allow to be said. -/
structure Scorecard.Complete (m : Manifest) (runs : List Run) (s : Scorecard) : Prop where
  primary : s.primary.Weighs m runs
  /-- The tasks come in the order of the manifest, each with a comparison over its own runs. -/
  byTask : List.Forall₂ (fun t e => e.taskId = t.id ∧
    e.comparison.Weighs m (runs.filter fun r => Identifier.same r.taskId t.id)) m.tasks s.byTask
  /-- What can be said of one task can be said of all runs. -/
  lifts : ∀ e ∈ s.byTask, (∃ deltas, e.comparison.outcome = .computed deltas) →
    ∃ deltas, s.primary.outcome = .computed deltas
  note_eq_none_iff : s.primary.note = none ↔ s.primary.sufficientData = true

theorem Scorecard.complete_ofRuns {m : Manifest} (differ : m.ArmsDiffer) (runs : List Run) :
    (ofRuns m runs).Complete m runs := by
  have primary : (ofRuns m runs).primary.Weighs m runs := by
    rw [primary_eq_compareArms runs differ]
    exact weighs_compareArms m runs
  have weighs (t : Task) : (compareTask m runs t).comparison.Weighs m
      (runs.filter fun r => Identifier.same r.taskId t.id) := by
    rw [comparison_compareTask]
    exact weighs_compareArms m _
  refine ⟨primary, ?_, ?_, Comparison.note_eq_none_iff _⟩
  · show List.Forall₂ _ m.tasks (m.tasks.map _)
    rw [List.forall₂_map_right_iff, List.forall₂_same]
    exact fun t _ => ⟨rfl, weighs t⟩
  · intro e member computed
    obtain ⟨t, -, rfl⟩ := List.mem_map.mp member
    have roles := (weighs t).computed_iff.mp computed
    exact primary.computed_iff.mpr fun role => (roles role).mono List.filter_sublist.subset

section Reasons

private theorem head?_of_append {first rest : String} {c : Char}
    (begins : first.toList.head? = some c) : (first ++ rest).toList.head? = some c := by
  rw [String.toList_append, List.head?_append, begins, Option.some_or]

private theorem head?_noteOf (control treatment : Option ConditionSummary) :
    (Comparison.noteOf control treatment).toList.head? = some 'n' := by
  cases control with
  | none =>
    cases treatment with
    | none =>
      show "no control or treatment condition declared".toList.head? = some 'n'
      decide
    | some t =>
      show "no control condition declared".toList.head? = some 'n'
      decide
  | some c =>
    cases treatment with
    | none =>
      show "no treatment condition declared".toList.head? = some 'n'
      decide
    | some t => exact head?_of_append (head?_of_append rfl)

private theorem head?_note_of {control treatment : Option ConditionSummary} {text : String}
    (said : (Comparison.of control treatment).note = some text) :
    text.toList.head? = some 'n' := by
  cases sufficient : (Comparison.of control treatment).sufficientData with
  | true =>
    rw [(Comparison.note_eq_none_iff _).mpr sufficient] at said
    cases said
  | false =>
    rw [Comparison.note, Comparison.outcome_of_insufficient sufficient] at said
    cases said
    exact head?_noteOf control treatment

private theorem exists_insufficientData_of_head? {o : Objection}
    (begins : o.note.toList.head? = some 'i') : ∃ reason, o = .insufficientData reason := by
  have apart {c : Char} (other : o.note.toList.head? = some c) (ne : c ≠ 'i') : False :=
    ne (Option.some.inj (other.symm.trans begins))
  cases o with
  | insufficientData reason => exact ⟨reason, rfl⟩
  | invalidManifest n => exact (apart (head?_of_append (head?_of_append rfl)) (by decide)).elim
  | invalidRuns n => exact (apart (head?_of_append (head?_of_append rfl)) (by decide)).elim
  | runWarnings n => exact (apart (head?_of_append (head?_of_append rfl)) (by decide)).elim

private theorem of_insufficientData_mem {f : Findings} {reason : Option String}
    (objected : .insufficientData reason ∈ f.objections) :
    f.sufficientData = false ∧ reason = f.insufficiencyNote := by
  revert objected
  simp only [Findings.objections, List.mem_append]
  cases f.manifestValid <;> cases f.runsValid <;> cases f.sufficientData <;>
    cases f.warningsBlock <;> simp

end Reasons

namespace Gate

open Attempt

variable {σ : Type} [FileSystem (StateM σ)] {store : Store (StateM σ)}
  {isThere : Path → StateM σ Bool} {stopped : StateM σ Bool} {options : GateOptions} {s t : σ}
  {r : GateReport}

/-- However a gate is stopped and wherever it keeps its documents, a report that it gives rests on
what its stages report. -/
theorem report_of_gives (given : (run store isThere stopped options).Gives s r t) :
    ∃ (l : LoadedManifest) (runs : List Run) (manifest : ManifestReport) (now now' : String),
      r = report options now manifest (runReport options l.manifest runs)
        (scoreReport options l runs now') := by
  simp only [run, reportRuns, reportScore, gives_bind_iff, gives_during_iff, gives_liftM_iff,
    gives_pure_iff] at given
  -- each stage: the look for a request to stop, then what the stage gives
  obtain ⟨_, _, -, l, _, -, given⟩ := given
  obtain ⟨_, _, -, manifest, _, -, given⟩ := given
  obtain ⟨_, _, -, runs, _, -, given⟩ := given
  obtain ⟨_, _, -, _, _, ⟨_, _, -, rfl, -⟩, given⟩ := given
  obtain ⟨_, _, -, _, _, ⟨now', _, -, _, _, -, rfl, -⟩, given⟩ := given
  obtain ⟨_, _, -, _, _, -, now, _, -, _, _, -, _, _, -, rfl, -⟩ := given
  exact ⟨l, runs, manifest, now, now', rfl⟩

theorem fallback_notMem_notes (given : (run store isThere stopped options).Gives s r t) :
    (Objection.insufficientData none).note ∉ r.notes := by
  obtain ⟨l, runs, manifest, now, now', rfl⟩ := report_of_gives given
  intro listed
  obtain ⟨o, objected, noted⟩ := List.mem_map.mp listed
  obtain ⟨reason, rfl⟩ := exists_insufficientData_of_head? (o := o) (by
    rw [noted]
    exact head?_of_append rfl)
  obtain ⟨lacking, said⟩ := of_insufficientData_mem objected
  cases reason with
  | none =>
    have sufficient := (Comparison.note_eq_none_iff _).mp said.symm
    exact Bool.false_ne_true (lacking.symm.trans sufficient)
  | some text =>
    have begins : text.toList.head? = some 'n' := head?_note_of said.symm
    have same : text = "control and treatment each need at least one run" :=
      (String.append_right_inj "insufficient data: ").mp noted
    rw [same] at begins
    exact absurd begins (by decide)

end Gate

namespace Scorecard

/-- Where no two arms share an identifier, every comparison of a scorecard says all that the runs
allow to be said: of all runs, and task by task.  Whatever a gate works on, it never notes that data
are insufficient without such a reason. -/
theorem ofRuns_explains (m : Manifest) (differ : m.ArmsDiffer) (runs : List Run) :
    (ofRuns m runs).Complete m runs ∧
    ∀ (σ : Type) [FileSystem (StateM σ)] (store : Store (StateM σ))
      (isThere : Path → StateM σ Bool) (stopped : StateM σ Bool) (options : GateOptions) (s t : σ)
      (r : GateReport), (Gate.run store isThere stopped options).Gives s r t →
        (Objection.insufficientData none).note ∉ r.notes :=
  ⟨complete_ofRuns differ runs, fun _ _ _ _ _ _ _ _ _ => Gate.fallback_notMem_notes⟩

private def pairOneSided : Workspace where
  disk := Disk.empty ["work"]
  documents := [(⟨"pair/manifest.json"⟩, Manifest.pair.toJson),
    (⟨"pair/runs/1.json"⟩, (Run.ofPair "1" "TOOLS" (some 1) []).toJson)]
  clock := "now"
  answered := 0

private def judgeOneSided : GateOptions :=
  ⟨⟨"pair/manifest.json"⟩, ⟨"pair/runs"⟩, ⟨"out"⟩, .empty, false, 20⟩

theorem ofRuns_explains_pair : Manifest.pair.ArmsDiffer ∧
    (ofRuns .pair [Run.ofPair "1" "TOOLS" (some 1) []]).Complete .pair
      [Run.ofPair "1" "TOOLS" (some 1) []] ∧
    ∃ r w', (Gate.run Store.inMemory (Gate.probe fun _ _ => false) (pure false)
      judgeOneSided).Gives pairOneSided r w' ∧ r.sufficientData = false ∧
        (Objection.insufficientData none).note ∉ r.notes := by
  have differ : Manifest.pair.ArmsDiffer := by decide +kernel
  obtain ⟨complete, noted⟩ := ofRuns_explains .pair differ [Run.ofPair "1" "TOOLS" (some 1) []]
  let gate : Attempt (StateM Workspace) GateReport :=
    Gate.run Store.inMemory (Gate.probe fun _ _ => false) (pure false) judgeOneSided
  have ends : ((gate.outcome pairOneSided).1.toOption.any fun r => !r.sufficientData) = true := by
    decide +kernel
  obtain ⟨r, succeeds, lacking⟩ := (Option.any_eq_true _ _).mp ends
  have given := Attempt.gives_of_toOption_eq_some succeeds
  exact ⟨differ, complete, r, _, given, by simpa using lacking, noted _ _ _ _ _ _ _ _ given⟩

end Scorecard
end ToolTrial
