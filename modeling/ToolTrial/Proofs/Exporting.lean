import ToolTrial.Proofs.Leaving
import ToolTrial.Proofs.Placing
import ToolTrial.Proofs.ScoreRereading

/-!
The summary of a gate, exported again.  It is rendered from documents that have gone through a
store: a document loses floats that are not finite, and a disk may give back another float than it
was given.  As long as none of these is shown, the text is the one that the gate has left.
-/

set_option autoImplicit false
set_option relaxedAutoImplicit false

namespace ToolTrial

/-- The floats that a summary of the primary comparison shows. -/
def Outcome.shown : Outcome → List (Option Float)
  | .computed d => d.rates.map some ++ d.optionals
  | .insufficient _ => []

def Outcome.shownInRow (o : Outcome) : List (Option Float) :=
  [(Summary.taskNumbers o).1, (Summary.taskNumbers o).2]

def ConditionSummary.shown (s : ConditionSummary) : List (Option Float) :=
  s.rates.map some ++ [s.averageHelpfulness, s.averageTotalTokens]

/-- The floats of a report that a summary of it shows, where they are there. -/
def ScoreReport.shown (r : ScoreReport) : List (Option Float) :=
  r.summaries.flatMap ConditionSummary.shown ++ r.primary.outcome.shown ++
    r.byTask.flatMap fun t => t.comparison.outcome.shownInRow

/-- Floats that a document can carry, and that are changed into themselves. -/
def AreFixed (f : Float → Float) (floats : List (Option Float)) : Prop :=
  ∀ o ∈ floats, ∀ x ∈ o, x.isFinite = true ∧ f x = x

private theorem carried_map_eq_self {f : Float → Float} {o : Option Float}
    (fixed : ∀ x ∈ o, x.isFinite = true ∧ f x = x) : Json.carried (o.map f) = o := by
  cases o with
  | none => rfl
  | some x =>
    obtain ⟨finite, same⟩ := fixed x rfl
    rw [Option.map_some, same]
    exact Json.carried_eq_self fun y inside => Option.some.inj inside ▸ finite

private theorem eq_of_fixed {f : Float → Float} {x : Float}
    (fixed : ∀ y ∈ some x, y.isFinite = true ∧ f y = y) : f x = x :=
  (fixed x rfl).2

namespace Summary

variable {f : Float → Float}

theorem conditionCells_mapFloats {s : ConditionSummary} (h : AreFixed f s.shown) :
    conditionCells (s.mapFloats f).carried = conditionCells s := by
  simp only [AreFixed, ConditionSummary.shown, ConditionSummary.rates, List.map_cons, List.map_nil,
    List.cons_append, List.nil_append, List.forall_mem_cons] at h
  obtain ⟨success, compile, tests, used, share, helpfulness, tokens, -⟩ := h
  simp only [conditionCells, ConditionSummary.carried, ConditionSummary.mapFloats,
    eq_of_fixed success, eq_of_fixed compile, eq_of_fixed tests, eq_of_fixed used,
    eq_of_fixed share, carried_map_eq_self helpfulness, carried_map_eq_self tokens]

theorem outcome_mapFloats {o : Outcome} (h : AreFixed f o.shown) :
    outcome (o.mapFloats f).carried = outcome o := by
  cases o with
  | computed d =>
    simp only [AreFixed, Outcome.shown, Deltas.rates, Deltas.optionals, List.map_cons, List.map_nil,
      List.cons_append, List.nil_append, List.forall_mem_cons] at h
    obtain ⟨success, compile, tests, used, share, helpfulness, tokens, ratio, -⟩ := h
    have deltas : ((Outcome.computed d).mapFloats f).carried = .computed d := by
      simp only [Outcome.mapFloats, Outcome.carried, Deltas.carried, eq_of_fixed success,
        eq_of_fixed compile, eq_of_fixed tests, eq_of_fixed used, eq_of_fixed share,
        carried_map_eq_self helpfulness, carried_map_eq_self tokens, carried_map_eq_self ratio]
    rw [deltas]
  | insufficient d =>
    rw [Outcome.mapFloats, Outcome.carried]
    rfl

theorem taskCells_mapFloats {t : TaskComparison}
    (h : AreFixed f t.comparison.outcome.shownInRow) :
    taskCells (t.mapFloats f).carried = taskCells t := by
  have numbers : taskNumbers (t.comparison.outcome.mapFloats f).carried =
      taskNumbers t.comparison.outcome := by
    simp only [AreFixed, Outcome.shownInRow, List.forall_mem_cons] at h
    cases kind : t.comparison.outcome with
    | computed d =>
      rw [kind] at h
      have success : f d.successRate = d.successRate := eq_of_fixed h.1
      have used : f d.toolUsedRate = d.toolUsedRate := eq_of_fixed h.2.1
      simp only [taskNumbers, Outcome.mapFloats, Outcome.carried, Deltas.carried, success, used]
    | insufficient d =>
      rw [kind] at h
      have used : Json.carried (d.treatmentToolUsedRate.map f) = d.treatmentToolUsedRate :=
        carried_map_eq_self h.2.1
      simp only [taskNumbers, Outcome.mapFloats, Outcome.carried, Insufficiency.carried, used]
  have status : (t.comparison.outcome.mapFloats f).carried.status =
      t.comparison.outcome.status := by
    cases t.comparison.outcome <;> rfl
  simp only [taskCells, TaskComparison.mapFloats, TaskComparison.carried, Comparison.mapFloats,
    Comparison.carried, numbers, status]

theorem primary_mapFloats {c : Comparison} (h : AreFixed f c.outcome.shown) :
    primary (c.mapFloats f).carried = primary c := by
  unfold primary Comparison.carried Comparison.mapFloats
  dsimp only
  rw [outcome_mapFloats h]

private theorem conditions_congr {some others : List ConditionSummary}
    (rows : some.map (fun s => row (conditionCells s)) =
      others.map fun s => row (conditionCells s)) : conditions some = conditions others := by
  unfold conditions
  rw [rows]

private theorem tasks_congr {some others : List TaskComparison}
    (rows : some.map (fun t => row (taskCells t)) = others.map fun t => row (taskCells t)) :
    tasks some = tasks others := by
  unfold tasks
  rw [rows]

theorem header_mapFloats (score : ScoreReport) (runs : RunValidation) :
    header (score.mapFloats f).carried runs = header score runs := rfl

/-- What a store changes in a report does not change its summary, unless the summary shows it. -/
theorem render_mapFloats {score : ScoreReport} (h : AreFixed f score.shown) (runs : RunReport)
    (limit : Nat) : render (score.mapFloats f).carried runs limit = render score runs limit := by
  simp only [AreFixed, ScoreReport.shown, List.forall_mem_append, List.forall_mem_flatMap] at h
  obtain ⟨⟨summaries, primary⟩, byTask⟩ := h
  have conditions : conditions (score.mapFloats f).carried.summaries =
      conditions score.summaries := by
    refine conditions_congr ?_
    show ((score.summaries.map _).map _).map _ = _
    rw [List.map_map, List.map_map]
    refine List.map_congr_left fun s inside => ?_
    exact congrArg row (conditionCells_mapFloats (summaries s inside))
  have comparison : Summary.primary (score.mapFloats f).carried.primary =
      Summary.primary score.primary :=
    primary_mapFloats primary
  have tasks : tasks (score.mapFloats f).carried.byTask = tasks score.byTask := by
    refine tasks_congr ?_
    show ((score.byTask.map _).map _).map _ = _
    rw [List.map_map, List.map_map]
    refine List.map_congr_left fun t inside => ?_
    exact congrArg row (taskCells_mapFloats (byTask t inside))
  rw [render, render, header_mapFloats, conditions, comparison, tasks]

theorem primary_eq_of_render_eq {score : ScoreReport} {runs : RunReport} {limit : Nat}
    (arms : conditions (score.mapFloats f).carried.summaries = conditions score.summaries)
    (rows : tasks (score.mapFloats f).carried.byTask = tasks score.byTask)
    (same : render (score.mapFloats f).carried runs limit = render score runs limit) :
    primary (score.mapFloats f).carried.primary = primary score.primary := by
  rw [render, render, header_mapFloats, arms, rows] at same
  simpa only [String.append_left_inj, String.append_right_inj] using same

end Summary

namespace Gate

open Attempt

/-- Reports that are loaded again from where a store keeps them: their documents can be decoded, and
each float in them is read as some float. -/
structure Reloadable (kind : Store.Kind) (score : ScoreReport) (runs : RunReport) : Prop where
  scores : score.Encodable
  checks : runs.validation.Countable
  comeBack : ∀ x ∈ score.toJson.floats, (kind.reread? x).isSome = true

/-- What is shown of the reports comes back from the store as it is. -/
structure Reproducible (kind : Store.Kind) (score : ScoreReport) (runs : RunReport) : Prop
    extends Reloadable kind score runs where
  shown : ∀ o ∈ score.shown, ∀ x ∈ o, x.isFinite = true ∧ kind.reread? x = some x

instance (kind : Store.Kind) (score : ScoreReport) (runs : RunReport) :
    Decidable (Reloadable kind score runs) :=
  decidable_of_iff (score.Encodable ∧ runs.validation.Countable ∧
      ∀ x ∈ score.toJson.floats, (kind.reread? x).isSome = true)
    ⟨fun ⟨scores, checks, comeBack⟩ => ⟨scores, checks, comeBack⟩,
      fun h => ⟨h.scores, h.checks, h.comeBack⟩⟩

instance (kind : Store.Kind) (score : ScoreReport) (runs : RunReport) :
    Decidable (Reproducible kind score runs) :=
  decidable_of_iff (Reloadable kind score runs ∧
      ∀ o ∈ score.shown, ∀ x ∈ o, x.isFinite = true ∧ kind.reread? x = some x)
    ⟨fun ⟨reloadable, shown⟩ => ⟨reloadable, shown⟩, fun h => ⟨h.toReloadable, h.shown⟩⟩

def exportAgain (kind : Store.Kind) (options : GateOptions) (r : GateReport) (out : Path) :
    Attempt (StateM Workspace) Unit :=
  exportSummary kind.store r.scorePath r.runReportPath options.maxExportIssues out

/-- The summary that a gate has left is exported again, to any path where a text can be put. -/
def Reexports (kind : Store.Kind) (options : GateOptions) (r : GateReport)
    (w' : Workspace) : Prop :=
  ∃ text, w'.disk.readText r.summaryPath = .ok text ∧
    (∀ out, (exportAgain kind options r out).outcome w' =
      (FileSystem.writeWhole out text : Attempt (StateM Workspace) Unit).outcome w') ∧
    (∀ out w'', (exportAgain kind options r out).Gives w' () w'' →
      w''.disk.readText out = .ok text) ∧
    ∀ out name, w'.disk.Admits out name →
      ∃ w'', (exportAgain kind options r out).Gives w' () w''

section Reports

variable {kind : Store.Kind} {exist : Workspace → Path → Bool} {stopped : StateM Workspace Bool}
  {options : GateOptions} {w w' : Workspace} {l : LoadedManifest} {runs : List Run}
  {manifest : ManifestReport} {score : ScoreReport} {r : GateReport}

theorem Completed.readsSummary
    (h : Completed kind exist stopped options w l runs manifest score r w') :
    w'.disk.readText r.summaryPath =
      .ok (Summary.render score (runReport options l.manifest runs) options.maxExportIssues) := by
  have path : r.summaryPath = options.outDir.child summaryName :=
    congrArg GateReport.summaryPath h.reports
  rw [path]
  exact h.leaves.readText (by simp [outputs, stageOutputs])

theorem Completed.loadsScore
    (h : Completed kind exist stopped options w l runs manifest score r w')
    (good : Reloadable kind score (runReport options l.manifest runs)) :
    (kind.store.loadAs ScoreReport.decode r.scorePath).Gives w' (score.reloaded kind) w' := by
  have path : r.scorePath = options.outDir.child scoreName :=
    congrArg GateReport.scorePath h.reports
  have keeps : kind.Keeps w' (options.outDir.child scoreName) score.toJson :=
    h.leaves.keeps (by simp [outputs, stageOutputs])
  rw [path, ScoreReport.loadAs_gives_iff good.scores keeps]
  exact ⟨good.comeBack, rfl⟩

theorem Completed.loadsRunReport
    (h : Completed kind exist stopped options w l runs manifest score r w')
    (good : (runReport options l.manifest runs).validation.Countable) :
    (kind.store.loadAs RunReport.decode r.runReportPath).Gives w'
      (runReport options l.manifest runs) w' := by
  have path : r.runReportPath = options.outDir.child runReportName :=
    congrArg GateReport.runReportPath h.reports
  rw [path]
  exact h.leaves.loadsAs (by simp [outputs, stageOutputs]) (RunReport.readable_toJson good)
    (RunReport.decode_toJson good)

/-- An export puts the summary of the reports in place as they are loaded. -/
theorem Completed.outcome_exportAgain
    (h : Completed kind exist stopped options w l runs manifest score r w')
    (good : Reloadable kind score (runReport options l.manifest runs)) (out : Path) :
    (exportAgain kind options r out).outcome w' =
      (FileSystem.writeWhole out (Summary.render (score.reloaded kind)
        (runReport options l.manifest runs) options.maxExportIssues) :
        Attempt (StateM Workspace) Unit).outcome w' := by
  have scores : _ = _ := h.loadsScore good
  have checks : _ = _ := h.loadsRunReport good.checks
  rw [exportAgain, exportSummary, outcome_bind, scores]
  dsimp only
  rw [outcome_bind, checks]

theorem Completed.reexports
    (h : Completed kind exist stopped options w l runs manifest score r w')
    (good : Reproducible kind score (runReport options l.manifest runs)) :
    Reexports kind options r w' := by
  have same : Summary.render (score.reloaded kind) (runReport options l.manifest runs)
      options.maxExportIssues =
        Summary.render score (runReport options l.manifest runs) options.maxExportIssues := by
    refine Summary.render_mapFloats (fun o listed x inside => ?_) _ _
    obtain ⟨finite, given⟩ := good.shown o listed x inside
    exact ⟨finite, Store.Kind.reread_eq_self given⟩
  have exports (out : Path) := same ▸ h.outcome_exportAgain good.toReloadable out
  refine ⟨_, h.readsSummary, exports, fun out w'' exported => ?_, fun out name admits => ?_⟩
  · rw [Gives, exports] at exported
    exact Workspace.readText_of_writeWhole exported
  · obtain ⟨d, wrote⟩ := Workspace.exists_writeWhole_of_admits admits
      (Summary.render score (runReport options l.manifest runs) options.maxExportIssues)
    exact ⟨_, (exports out).trans wrote⟩

end Reports

/-- A gate that gives a report leaves a summary and the reports that it was rendered from.  To
export the summary again is to put in place what is rendered from these as they are loaded, which is
the text of the gate where every float that it shows comes back from the store; in memory each does.
No matter what becomes of floats that are not shown, the export then fails only where no text can be
put. -/
theorem run_reexports (kind : Store.Kind) (exist : Workspace → Path → Bool)
    {stopped : StateM Workspace Bool} (quiet : Quiet stopped) (options : GateOptions)
    {w w' : Workspace} {r : GateReport}
    (given : (run kind.store (probe exist) stopped options).Gives w r w') :
    (∃ l runs manifest score, Completed kind exist stopped options w l runs manifest score r w') ∧
    ∀ l runs manifest score, Completed kind exist stopped options w l runs manifest score r w' →
      (Reloadable kind score (runReport options l.manifest runs) → ∀ out,
        (exportAgain kind options r out).outcome w' =
          (FileSystem.writeWhole out (Summary.render (score.reloaded kind)
            (runReport options l.manifest runs) options.maxExportIssues) :
            Attempt (StateM Workspace) Unit).outcome w') ∧
      (Reproducible kind score (runReport options l.manifest runs) →
        Reexports kind options r w') := by
  have completes := (ends_run kind exist stopped options w quiet).gives r w' given
  exact ⟨completes, fun _ _ _ _ completed =>
    ⟨fun good out => completed.outcome_exportAgain good out, fun good => completed.reexports good⟩⟩

private def pairRecordedOnce : Workspace where
  disk := Disk.empty ["work"]
  documents := [(⟨"pair/manifest.json"⟩, Manifest.pair.toJson),
    (⟨"pair/runs/1.json"⟩, (Run.ofPair "1" "plain" (some 1) []).toJson)]
  clock := "now"
  answered := 0

private def ofNoRuns : GateOptions :=
  ⟨⟨"pair/manifest.json"⟩, ⟨"pair/runs"⟩, ⟨"out"⟩, .one .nothing, true, 20⟩

private def gateOfNoRuns : Attempt (StateM Workspace) GateReport :=
  run Store.inMemory (probe fun _ _ => false) (pure false) ofNoRuns

private def pairOnly : LoadedManifest :=
  ⟨Manifest.pair, ⟨"pair/manifest.json"⟩, Manifest.pair.toJson.sha256⟩

private theorem fits_nothing (path : Path) : Store.fits (.one .nothing) path = false := by
  have none (cs : List Char) (places : List Nat) : Pattern.ends cs (.one .nothing) places = [] := by
    rw [Pattern.ends, List.filterMap_eq_nil_iff]
    intro i _
    cases cs[i]? <;> rfl
  rw [Store.fits]
  cases path.fileName? with
  | none => rfl
  | some name =>
    rw [Option.any_some, Pattern.isFoundIn, none]
    rfl

private theorem reproducible_ofNoRuns {l : LoadedManifest} {runs : List Run}
    {manifest : ManifestReport} {score : ScoreReport} {r : GateReport} {w' : Workspace}
    (h : Completed .inMemory (fun _ _ => false) (pure false) ofNoRuns pairRecordedOnce l runs
      manifest score r w') :
    Reproducible .inMemory score (runReport ofNoRuns l.manifest runs) := by
  have loads : ((loadManifest Store.inMemory ofNoRuns.manifestPath).outcome
      pairRecordedOnce).1.toOption = some pairOnly := by decide +kernel
  obtain ⟨rfl, -⟩ := h.begun.loadsManifest.unique (gives_of_toOption_eq_some loads)
  obtain rfl : runs = [] := by
    obtain ⟨v, -, loaded⟩ := h.scores.loadsRuns
    obtain ⟨documents, found, read⟩ := (loadRuns_gives_iff _ _ _ _ _ _).mp loaded
    obtain ⟨-, fitting, -⟩ := (Store.inMemory_loadAll_gives_iff _ _ _ _ _).mp found
    obtain rfl : documents = [] := by
      rw [← fitting, Store.found, List.filter_eq_nil_iff]
      intro e _
      rw [ofNoRuns, fits_nothing]
      exact Bool.false_ne_true
    cases read
    rfl
  -- the time of the report is the one thing that is not settled here
  obtain ⟨now, rfl⟩ := h.scores.scored
  have good : Reproducible .inMemory (scoreReport ofNoRuns pairOnly [] "")
      (runReport ofNoRuns pairOnly.manifest []) := by decide +kernel
  obtain ⟨⟨⟨total, summaries, primary, byTask⟩, checks, -⟩, shown⟩ := good
  exact ⟨⟨⟨total, summaries, primary, byTask⟩, checks, fun _ _ => rfl⟩, shown⟩

/-- A run of so long a duration that the sum of two is no finite float. -/
private def longRun (id : String) : Run :=
  { Run.ofPair id "tools" none [] with durationSeconds := 1.5e308 }

theorem run_reexports_pair :
    (∃ r w', gateOfNoRuns.Gives pairRecordedOnce r w' ∧ Reexports .inMemory ofNoRuns r w') ∧
    Reproducible (.onDisk 1) (scoreReport ofNoRuns pairOnly [longRun "1", longRun "2"] "now")
      (runReport ofNoRuns Manifest.pair [longRun "1", longRun "2"]) ∧
    ¬ AreCarried (scoreReport ofNoRuns pairOnly [longRun "1", longRun "2"] "now").optionals := by
  refine ⟨?_, by decide +kernel, by decide +kernel⟩
  have ends : (gateOfNoRuns.outcome pairRecordedOnce).1.toOption.isSome = true := by decide +kernel
  obtain ⟨r, succeeds⟩ := Option.isSome_iff_exists.mp ends
  have given := gives_of_toOption_eq_some succeeds
  have quiet : Quiet (pure false) := fun _ => ⟨rfl, rfl⟩
  obtain ⟨⟨l, runs, manifest, score, completed⟩, reexports⟩ :=
    run_reexports .inMemory (fun _ _ => false) quiet ofNoRuns given
  exact ⟨r, _, given,
    (reexports l runs manifest score completed).2 (reproducible_ofNoRuns completed)⟩

theorem Course.completed {kind : Store.Kind} {exist : Workspace → Path → Bool}
    {options : GateOptions} {w : Workspace} (course : Course kind.store exist options w) :
    Completed kind exist (pure false) options w course.loaded course.runs
      (manifestReport exist options course.loaded course.manifestLoaded)
      (scoreReport options course.loaded course.runs (clock course.runsReported).1)
      course.gateReport course.finish := by
  obtain ⟨l, begun, checked, runs, loaded, _, _, _, _, loadsManifest, savesManifestReport,
    loadsRuns, savesRunReport, savesScore, writesSummary, savesGateReport⟩ := course
  have isName {name : String} (listed : name ∈ outputNames) : Path.IsName name :=
    isName_of_mem_outputNames listed
  obtain rfl : begun = w := by
    have left := steady_loadManifest kind options.manifestPath w
    rwa [loadsManifest] at left
  obtain rfl : loaded = checked := by
    have left := steady_loadRuns kind options.runsDir options.runFilePattern checked
    rwa [loadsRuns] at left
  have manifest := Left.of_save (isName (by decide)) savesManifestReport
  have checks := manifest.concat (Left.of_save (isName (by decide)) savesRunReport) ⟨_, rfl⟩
  have score := checks.concat (Left.of_save (isName (by decide)) savesScore) ⟨_, rfl⟩
  have summary := score.concat (Left.of_writeWhole kind (isName (by decide)) writesSummary) ⟨_, rfl⟩
  have all := summary.concat (Left.of_save (isName (by decide)) savesGateReport) ⟨_, rfl⟩
  exact ⟨⟨rfl, loadsManifest⟩, ⟨_, ⟨rfl, rfl⟩, rfl⟩, ⟨⟨_, manifest, loadsRuns⟩, ⟨_, rfl⟩⟩, rfl, all⟩

section OneLost

private def spending (id condition : String) (replicate : Int) (calls : List ToolCall)
    (tokens : Nat) : Run :=
  { Run.ofPair id condition (some replicate) calls with
    tokenUsage := some ⟨none, none, some tokens⟩ }

/-- Three runs of the control arm with 40 tokens, and one of the treatment arm with 23. -/
private def spendingRuns : List Run :=
  [spending "1" "plain" 1 [] 13, spending "2" "plain" 2 [] 13, spending "3" "plain" 3 [] 14,
    spending "4" "tools" 1 [⟨"roslyn_find", true⟩] 23]

private def spendingOnDisk : Workspace where
  disk := { workplace := ["work"], entries := [(["work"], .directory),
    (["work", "manifest.json"], .file (.text Manifest.pair.toJson.savedText)),
    (["work", "runs"], .directory)] ++ spendingRuns.map fun r =>
      (["work", "runs", r.runId ++ ".json"], .file (.text r.toJson.savedText)) }
  documents := []
  clock := "now"
  answered := 0

private def ofRunsOnDisk : GateOptions :=
  ⟨⟨"manifest.json"⟩, ⟨"runs"⟩, ⟨"out"⟩, Pattern.documentNames, false, 20⟩

private def pairOnDisk : LoadedManifest :=
  ⟨Manifest.pair, ⟨"manifest.json"⟩, Manifest.pair.toJson.sha256⟩

private theorem loadManifest_spendingOnDisk : (loadManifest (Store.onDisk 1)
    ofRunsOnDisk.manifestPath).Gives spendingOnDisk pairOnDisk spendingOnDisk := by
  have keeps : (Store.Kind.onDisk 1).Keeps spendingOnDisk ⟨"manifest.json"⟩ Manifest.pair.toJson :=
    rfl
  exact loadManifest_of_keeps Manifest.loadable_pair (by decide) keeps

private def checked : ManifestReport :=
  manifestReport (fun _ _ => false) ofRunsOnDisk pairOnDisk spendingOnDisk

private def counted : RunReport := runReport ofRunsOnDisk pairOnDisk.manifest spendingRuns

private def afterSave (name : String) (j : Json) (w : Workspace) : Workspace :=
  (((Store.onDisk 1).save (ofRunsOnDisk.outDir.child name) j).outcome w).2

private theorem afterSave_gives {name : String} {j : Json} {w : Workspace}
    (succeeds : (((Store.onDisk 1).save (ofRunsOnDisk.outDir.child name) j).outcome w).1.toOption =
      some ()) :
    ((Store.onDisk 1).save (ofRunsOnDisk.outDir.child name) j).Gives w () (afterSave name j w) :=
  gives_of_toOption_eq_some succeeds

private def manifestLeft : Workspace := afterSave manifestReportName checked.toJson spendingOnDisk

private theorem encodable_spending (id condition : String) {replicate : Int} (calls : List ToolCall)
    {tokens : Nat} (small : IsSigned replicate) (bounded : tokens < TokenUsage.bound) :
    (spending id condition replicate calls tokens).Encodable := by
  have finite : (1.0 : Float).isFinite = true := by decide +kernel
  refine ⟨finite, ?_, by rintro _ ⟨⟩, ?_⟩
  · rintro _ ⟨⟩
    exact small
  · rintro _ ⟨⟩
    refine ⟨by rintro _ ⟨⟩, by rintro _ ⟨⟩, ?_⟩
    rintro _ ⟨⟩
    exact bounded

private theorem reads_spendingRuns : List.Forall₂ (Store.Reads manifestLeft.disk)
    [⟨"runs/1.json"⟩, ⟨"runs/2.json"⟩, ⟨"runs/3.json"⟩, ⟨"runs/4.json"⟩]
    (spendingRuns.map fun r => (⟨"runs/" ++ r.runId ++ ".json"⟩, r.toJson)) := by
  have given : Json.GivenBack 1.0 := by decide +kernel
  have reads {file : Path} {r : Run} (h : r.Encodable) (same : r.durationSeconds = 1.0)
      (text : manifestLeft.disk.readText file = .ok r.toJson.savedText) :
      Store.Reads manifestLeft.disk file (file, r.toJson) :=
    ⟨rfl, _, text, Json.read?_savedText (Run.readable_toJson h (same ▸ given))⟩
  refine .cons ?_ (.cons ?_ (.cons ?_ (.cons ?_ .nil)))
  · exact reads (encodable_spending _ _ _ ⟨by decide, by decide⟩ (by decide)) rfl rfl
  · exact reads (encodable_spending _ _ _ ⟨by decide, by decide⟩ (by decide)) rfl rfl
  · exact reads (encodable_spending _ _ _ ⟨by decide, by decide⟩ (by decide)) rfl rfl
  · exact reads (encodable_spending _ _ _ ⟨by decide, by decide⟩ (by decide)) rfl rfl

private theorem loadRuns_manifestLeft : (loadRuns (Store.onDisk 1) ofRunsOnDisk.runsDir
    ofRunsOnDisk.runFilePattern).Gives manifestLeft spendingRuns manifestLeft := by
  have leads : manifestLeft.disk.resolve ⟨"runs"⟩ = .ok ["work", "runs"] := by decide +kernel
  -- the entries of the directory, and then the documents, are in order already
  let below := manifestLeft.disk.entries.filterMap fun e =>
    (Disk.below? ["work", "runs"] e.1).map (·, e.2)
  have under : manifestLeft.disk.under ["work", "runs"] = below := by
    refine List.mergeSort_of_pairwise ?_
    decide +kernel
  have files : Store.sought Pattern.documentNames
      (manifestLeft.disk.found ["work", "runs"] 1 ⟨"runs"⟩) =
        [⟨"runs/1.json"⟩, ⟨"runs/2.json"⟩, ⟨"runs/3.json"⟩, ⟨"runs/4.json"⟩] := by
    rw [Disk.found, under]
    decide +kernel
  have ordered : Store.inOrder (spendingRuns.map fun r =>
      (⟨"runs/" ++ r.runId ++ ".json"⟩, r.toJson)) =
        spendingRuns.map fun r => (⟨"runs/" ++ r.runId ++ ".json"⟩, r.toJson) := by
    refine List.mergeSort_of_pairwise ?_
    decide +kernel
  have read : Run.ofDocuments [] (spendingRuns.map fun r =>
      (⟨"runs/" ++ r.runId ++ ".json"⟩, r.toJson)) = .ok spendingRuns := by
    decide +kernel
  rw [loadRuns_gives_iff]
  refine ⟨_, (Store.onDisk_loadAll_gives_iff _ _ _ _ _ _).mpr
    ⟨by decide +kernel, ⟨_, _, Disk.entriesBelow_eq (Disk.resolve_eq_ok_iff.mp leads) 1, ?_,
      ordered⟩, rfl⟩, read⟩
  show List.Forall₂ _ (Store.sought Pattern.documentNames _) _
  rw [files]
  exact reads_spendingRuns

private def checksLeft : Workspace := afterSave runReportName counted.toJson manifestLeft

private def scored : ScoreReport :=
  scoreReport ofRunsOnDisk pairOnDisk spendingRuns (clock checksLeft).1

private def scoreLeft : Workspace := afterSave scoreName scored.toJson (clock checksLeft).2

private def summaryLeft : Workspace :=
  ((FileSystem.writeWhole (ofRunsOnDisk.outDir.child summaryName)
    (Summary.render scored counted 20) : Attempt (StateM Workspace) Unit).outcome scoreLeft).2

private theorem writesSummary_scoreLeft :
    (FileSystem.writeWhole (ofRunsOnDisk.outDir.child summaryName)
      (Summary.render scored counted 20) : Attempt (StateM Workspace) Unit).Gives scoreLeft ()
      summaryLeft := by
  have ends : ((FileSystem.writeWhole (ofRunsOnDisk.outDir.child summaryName)
      (Summary.render scored counted 20) : Attempt (StateM Workspace) Unit).outcome
      scoreLeft).1.toOption = some () := by decide +kernel
  exact gives_of_toOption_eq_some ends

private def judged : GateReport :=
  report ofRunsOnDisk (clock summaryLeft).1 checked counted scored

private def gateLeft : Workspace :=
  afterSave gateReportName judged.toJson (clock summaryLeft).2

private theorem completed_spendingOnDisk : ∃ r,
    (run (Store.onDisk 1) (probe fun _ _ => false) (pure false) ofRunsOnDisk).Gives spendingOnDisk r
      gateLeft ∧
    Completed (.onDisk 1) (fun _ _ => false) (pure false) ofRunsOnDisk spendingOnDisk pairOnDisk
      spendingRuns checked scored r gateLeft := by
  let course : Course (Store.Kind.onDisk 1).store (fun _ _ => false) ofRunsOnDisk spendingOnDisk :=
    { loaded := pairOnDisk
      manifestLoaded := spendingOnDisk
      manifestReported := manifestLeft
      runs := spendingRuns
      runsLoaded := manifestLeft
      runsReported := checksLeft
      scoreReported := scoreLeft
      summarized := summaryLeft
      finish := gateLeft
      loadsManifest := loadManifest_spendingOnDisk
      savesManifestReport := afterSave_gives (j := checked.toJson) (by decide +kernel)
      loadsRuns := loadRuns_manifestLeft
      savesRunReport := afterSave_gives (j := counted.toJson) (by decide +kernel)
      savesScore := afterSave_gives (j := scored.toJson) (by decide +kernel)
      writesSummary := writesSummary_scoreLeft
      savesGateReport := afterSave_gives (j := judged.toJson) (by decide +kernel) }
  have given : (run (Store.onDisk 1) (probe fun _ _ => false) (pure false) ofRunsOnDisk).Gives
      spendingOnDisk course.gateReport course.finish :=
    (run_gives_iff _ _ _ _ _ _).mpr ⟨course, rfl, rfl⟩
  have completed := course.completed
  generalize course.gateReport = r at given completed
  dsimp only [course] at given completed
  exact ⟨r, given, completed⟩

private theorem render_reloaded_ne :
    Summary.render (scored.reloaded (.onDisk 1)) counted ofRunsOnDisk.maxExportIssues ≠
      Summary.render scored counted ofRunsOnDisk.maxExportIssues := by
  intro same
  have arms : Summary.conditions (scored.reloaded (.onDisk 1)).summaries =
      Summary.conditions scored.summaries := by decide +kernel
  have rows : Summary.tasks (scored.reloaded (.onDisk 1)).byTask = Summary.tasks scored.byTask := by
    decide +kernel
  have apart : Summary.primary (scored.reloaded (.onDisk 1)).primary ≠
      Summary.primary scored.primary := by decide +kernel
  exact apart (Summary.primary_eq_of_render_eq arms rows same)

/-- A ratio of tokens that is rounded down by the gate is rounded up by the export, which reads the
next float on the disk. -/
theorem not_run_reexports_from_disk : ¬ ∀ (kind : Store.Kind) (exist : Workspace → Path → Bool)
    (options : GateOptions) (w w' w'' : Workspace) (r : GateReport) (out : Path)
    (l : LoadedManifest) (runs : List Run) (manifest : ManifestReport) (score : ScoreReport),
    (run kind.store (probe exist) (pure false) options).Gives w r w' →
    Completed kind exist (pure false) options w l runs manifest score r w' →
    score.Encodable → (runReport options l.manifest runs).validation.Countable →
    (∀ o ∈ score.shown, ∀ x ∈ o, x.isFinite = true) →
    (exportAgain kind options r out).Gives w' () w'' →
    w''.disk.readText out = w'.disk.readText r.summaryPath := by
  intro all
  have good : Reloadable (.onDisk 1) scored counted := by decide +kernel
  have finite : ∀ o ∈ scored.shown, ∀ x ∈ o, x.isFinite = true := by decide +kernel
  obtain ⟨r, given, completed⟩ := completed_spendingOnDisk
  obtain ⟨w'', wrote⟩ : ∃ w'', (FileSystem.writeWhole ⟨"again.md"⟩
      (Summary.render (scored.reloaded (.onDisk 1)) counted ofRunsOnDisk.maxExportIssues) :
      Attempt (StateM Workspace) Unit).Gives gateLeft () w'' :=
    ⟨_, gives_of_toOption_eq_some (by decide +kernel)⟩
  have exported : (exportAgain (.onDisk 1) ofRunsOnDisk r ⟨"again.md"⟩).Gives gateLeft () w'' :=
    (completed.outcome_exportAgain good _).trans wrote
  have texts := all (.onDisk 1) (fun _ _ => false) ofRunsOnDisk spendingOnDisk gateLeft w'' r
    ⟨"again.md"⟩ pairOnDisk spendingRuns checked scored given completed good.scores
      good.checks finite exported
  rw [Workspace.readText_of_writeWhole wrote, completed.readsSummary] at texts
  exact render_reloaded_ne (Except.ok.inj texts)

end OneLost

end Gate
end ToolTrial
