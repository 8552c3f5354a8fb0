import ToolTrial.Gate
import ToolTrial.Proofs.Comparing
import ToolTrial.Proofs.Runs
import ToolTrial.Store.Workspace

/-!
What it means to pass the gate.  A course of the gate is a run of it on which nothing fails; the
gate gives a report exactly when there is one.  The report passes when the loaded manifest is
complete, the loaded runs fit it, both primary arms have runs, and, if warnings count, the runs are
unremarkable.
-/

set_option autoImplicit false
set_option relaxedAutoImplicit false

namespace ToolTrial

/-- The first control arm and the first treatment arm have runs. -/
structure Manifest.ArmsHaveRuns (m : Manifest) (runs : List Run) : Prop where
  control : ∃ c, m.primaryControl? = some c ∧
    ∃ r ∈ runs, Identifier.same r.conditionId c.id = true
  treatment : ∃ c, m.primaryTreatment? = some c ∧
    ∃ r ∈ runs, Identifier.same r.conditionId c.id = true

theorem Scorecard.sufficientData_primary_iff {m : Manifest}
    (distinct : (m.conditions.map fun c => Identifier.key c.id).Nodup) (runs : List Run) :
    (Scorecard.ofRuns m runs).primary.sufficientData = true ↔ m.ArmsHaveRuns runs := by
  rw [primary_eq_compareArms runs (m.armsDiffer_iff.mpr distinct), compareArms,
    Comparison.sufficientData_of, Bool.and_eq_true, isSome_withRuns_iff, isSome_withRuns_iff]
  exact ⟨fun both => ⟨both.1, both.2⟩, fun arms => ⟨arms.control, arms.treatment⟩⟩

private theorem verdict_gatePassed_iff (f : Findings) :
    f.verdict.gatePassed = true ↔ f.manifestValid = true ∧ f.runsValid = true ∧
      f.sufficientData = true ∧ (f.failOnRunWarnings = true → f.runWarningCount = 0) := by
  have warnings : (!f.warningsBlock) = true ↔
      (f.failOnRunWarnings = true → f.runWarningCount = 0) := by
    unfold Findings.warningsBlock
    cases f.failOnRunWarnings <;> simp
  rw [Findings.verdict, Bool.and_eq_true, Bool.and_eq_true, Bool.and_eq_true, warnings, and_assoc,
    and_assoc]

namespace Gate

open Attempt

variable {σ : Type}

def probe (exist : σ → Path → Bool) : Path → StateM σ Bool :=
  fun path s => (exist s path, s)

private theorem filterM_probe (exist : σ → Path → Bool) (paths : List Path) (s : σ) :
    (paths.filterM (probe exist) : StateM σ (List Path)) s = (paths.filter (exist s), s) := by
  have collected (found : List Path) :
      (paths.filterAuxM (probe exist) found : StateM σ (List Path)) s =
        ((paths.filter (exist s)).reverse ++ found, s) := by
    induction paths generalizing found with
    | nil => rfl
    | cons path rest ih =>
      have step : ((path :: rest).filterAuxM (probe exist) found : StateM σ (List Path)) s =
          (rest.filterAuxM (probe exist) (bif exist s path then path :: found else found) :
            StateM σ (List Path)) s := rfl
      rw [step, ih]
      cases there : exist s path <;> simp [there]
  have unfolded : (paths.filterM (probe exist) : StateM σ (List Path)) s =
      ((paths.filterAuxM (probe exist) [] s).1.reverse, (paths.filterAuxM (probe exist) [] s).2) :=
    rfl
  rw [unfolded, collected []]
  simp

private theorem gatePassed_report (options : GateOptions) (now : String)
    (manifest : ManifestReport) (runs : RunReport) (score : ScoreReport) :
    (report options now manifest runs score).gatePassed =
      (findings manifest runs score options.failOnRunWarnings).verdict.gatePassed :=
  rfl

def manifestReport (exist : σ → Path → Bool) (options : GateOptions) (l : LoadedManifest) (s : σ) :
    ManifestReport :=
  let found := (l.manifest.promptPaths l.base).filter (exist s)
  ManifestReport.ofIssues l.manifest (l.manifest.issues l.base found.contains)
    (options.outDir.child manifestReportName)

def runReport (options : GateOptions) (m : Manifest) (runs : List Run) : RunReport :=
  ⟨RunValidation.ofRuns m runs, options.outDir.child runReportName⟩

def scoreReport (options : GateOptions) (l : LoadedManifest) (runs : List Run) (now : String) :
    ScoreReport :=
  ScoreReport.ofScorecard l.manifest l.sha256 now runs (Scorecard.ofRuns l.manifest runs)
    (options.outDir.child scoreName)

@[simp]
private theorem checkpoint_gives_iff (stage : Stage) (s t : σ) (u : Unit) :
    (checkpoint (pure false) stage : Attempt (StateM σ) Unit).Gives s u t ↔ s = t := by
  simp [checkpoint, Gives]

theorem manifestIssues_probe (exist : σ → Path → Bool) (l : LoadedManifest) (s : σ) :
    manifestIssues (probe exist) l s =
      (l.manifest.issues l.base ((l.manifest.promptPaths l.base).filter (exist s)).contains,
      s) := by
  have unfolded : manifestIssues (probe exist) l s =
    (l.manifest.issues l.base
      ((l.manifest.promptPaths l.base).filterM (probe exist) s).1.contains,
      ((l.manifest.promptPaths l.base).filterM (probe exist) s).2) := rfl
  rw [unfolded, filterM_probe]

private theorem reportManifest_gives_iff (store : Store (StateM σ)) (exist : σ → Path → Bool)
    (options : GateOptions) (l : LoadedManifest) (s t : σ) (r : ManifestReport) :
    (reportManifest store (probe exist) l (options.outDir.child manifestReportName)).Gives s r t ↔
      (store.save (options.outDir.child manifestReportName)
        (manifestReport exist options l s).toJson).Gives s () t ∧
        manifestReport exist options l s = r := by
  simp only [reportManifest, gives_bind_iff, gives_during_iff, gives_liftM_iff, gives_pure_iff,
    manifestIssues_probe, ↓existsAndEq, and_true, true_and, Unique.exists_iff,
    PUnit.default_eq_unit]
  rfl

variable [FileSystem (StateM σ)]

def clock (s : σ) : String × σ :=
  (FileSystem.timestamp : StateM σ String) s

/-- A run of the gate on which no load and no write fails: what is loaded, and the states that the
loads and writes leave. -/
structure Course (store : Store (StateM σ)) (exist : σ → Path → Bool) (options : GateOptions)
    (start : σ) where
  loaded : LoadedManifest
  manifestLoaded : σ
  manifestReported : σ
  runs : List Run
  runsLoaded : σ
  runsReported : σ
  scoreReported : σ
  summarized : σ
  finish : σ
  loadsManifest : (loadManifest store options.manifestPath).Gives start loaded manifestLoaded
  savesManifestReport : (store.save (options.outDir.child manifestReportName)
    (manifestReport exist options loaded manifestLoaded).toJson).Gives
      manifestLoaded () manifestReported
  loadsRuns : (loadRuns store options.runsDir options.runFilePattern).Gives
    manifestReported runs runsLoaded
  savesRunReport : (store.save (options.outDir.child runReportName)
    (runReport options loaded.manifest runs).toJson).Gives runsLoaded () runsReported
  savesScore : (store.save (options.outDir.child scoreName)
    (scoreReport options loaded runs (clock runsReported).1).toJson).Gives
      (clock runsReported).2 () scoreReported
  writesSummary : (FileSystem.writeWhole (options.outDir.child summaryName)
    (Summary.render (scoreReport options loaded runs (clock runsReported).1)
      (runReport options loaded.manifest runs) options.maxExportIssues)).Gives
      scoreReported () summarized
  savesGateReport : (store.save (reportPath options.outDir)
    (report options (clock summarized).1 (manifestReport exist options loaded manifestLoaded)
      (runReport options loaded.manifest runs)
      (scoreReport options loaded runs (clock runsReported).1)).toJson).Gives
      (clock summarized).2 () finish

namespace Course

variable {store : Store (StateM σ)} {exist : σ → Path → Bool} {options : GateOptions} {start : σ}

def gateReport (course : Course store exist options start) : GateReport :=
  report options (clock course.summarized).1
    (manifestReport exist options course.loaded course.manifestLoaded)
    (runReport options course.loaded.manifest course.runs)
    (scoreReport options course.loaded course.runs (clock course.runsReported).1)

end Course

/-- The gate, never stopped, gives a report exactly when there is a course that ends with it. -/
theorem run_gives_iff (store : Store (StateM σ)) (exist : σ → Path → Bool) (options : GateOptions)
    (start finish : σ) (r : GateReport) :
    (run store (probe exist) (pure false) options).Gives start r finish ↔
      ∃ course : Course store exist options start,
        course.gateReport = r ∧ course.finish = finish := by
  simp only [run, reportRuns, reportScore, gives_bind_iff, gives_during_iff, gives_liftM_iff,
    gives_pure_iff, checkpoint_gives_iff, reportManifest_gives_iff, ↓existsAndEq, and_true,
    true_and, Unique.exists_iff, PUnit.default_eq_unit]
  constructor
  · rintro ⟨loaded, manifestLoaded, loadsManifest, manifestReported, savesManifestReport, runs,
      runsLoaded, loadsRuns, runsReported, savesRunReport, scoreReported, savesScore, summarized,
      writesSummary, savesGateReport, ended⟩
    exact ⟨⟨loaded, manifestLoaded, manifestReported, runs, runsLoaded, runsReported, scoreReported,
      summarized, finish, loadsManifest, savesManifestReport, loadsRuns, savesRunReport, savesScore,
      writesSummary, savesGateReport⟩, ended, rfl⟩
  · rintro ⟨course, ended, rfl⟩
    exact ⟨course.loaded, course.manifestLoaded, course.loadsManifest, course.manifestReported,
      course.savesManifestReport, course.runs, course.runsLoaded, course.loadsRuns,
      course.runsReported, course.savesRunReport, course.scoreReported, course.savesScore,
      course.summarized, course.writesSummary, course.savesGateReport, ended⟩

namespace Course

variable {store : Store (StateM σ)} {exist : σ → Path → Bool} {options : GateOptions} {start : σ}
  (course : Course store exist options start)

theorem loadable : course.loaded.manifest.Loadable :=
  loadable_of_loadManifest course.loadsManifest

theorem identified : Run.Identified course.runs := by
  obtain ⟨documents, -, read⟩ := (loadRuns_gives_iff _ _ _ _ _ _).mp course.loadsRuns
  exact Run.identified_of_ofDocuments read

private theorem manifestReport_valid_iff :
    (manifestReport exist options course.loaded course.manifestLoaded).valid = true ↔
      course.loaded.manifest.Complete course.loaded.base (exist course.manifestLoaded) := by
  let found := (course.loaded.manifest.promptPaths course.loaded.base).filter
    (exist course.manifestLoaded)
  have looked : course.loaded.manifest.Complete course.loaded.base found.contains ↔
      course.loaded.manifest.Complete course.loaded.base (exist course.manifestLoaded) :=
    course.loaded.manifest.complete_congr course.loaded.base fun p member => by
      simp [found, member]
  rw [← looked, ← course.loaded.manifest.errorCount_issues_eq_zero_iff _ _ course.loadable]
  exact beq_iff_eq

/-- The gate, never stopped, ends a course on which nothing fails with a report, and that report
passes exactly when the manifest is complete, every run fits it, both primary arms have runs, and,
if warnings count, the runs are unremarkable. -/
theorem gatePassed_iff : ∃ r,
    (run store (probe exist) (pure false) options).Gives start r course.finish ∧
      (r.gatePassed = true ↔
        course.loaded.manifest.Complete course.loaded.base (exist course.manifestLoaded) ∧
        (∀ r ∈ course.runs, r.Fits course.loaded.manifest) ∧
        course.loaded.manifest.ArmsHaveRuns course.runs ∧
        (options.failOnRunWarnings = true → course.loaded.manifest.Unremarkable course.runs)) := by
  have distinct := course.loadable.distinctConditions
  have ended := (run_gives_iff store exist options start course.finish course.gateReport).mpr
    ⟨course, rfl, rfl⟩
  refine ⟨course.gateReport, ended, ?_⟩
  have runsValid : (runReport options course.loaded.manifest course.runs).validation.valid = true ↔
      ∀ r ∈ course.runs, r.Fits course.loaded.manifest :=
    RunValidation.ofRuns_valid_iff distinct course.identified
  have enough : (scoreReport options course.loaded course.runs
      (clock course.runsReported).1).sufficientData = true ↔
        course.loaded.manifest.ArmsHaveRuns course.runs :=
    Scorecard.sufficientData_primary_iff distinct course.runs
  rw [gateReport, gatePassed_report, verdict_gatePassed_iff]
  simp only [findings]
  rw [course.manifestReport_valid_iff, runsValid, enough]
  refine and_congr_right fun _ => and_congr_right fun fit => and_congr_right fun _ => ?_
  refine imp_congr_right fun _ => ?_
  exact RunValidation.ofRuns_warningCount_eq_zero_iff distinct course.identified fit

private def pairWorkspace : Workspace where
  disk := Disk.empty ["work"]
  documents := [(⟨"pair/manifest.json"⟩, Manifest.pair.toJson),
    (⟨"pair/runs/1.json"⟩, (Run.ofPair "1" "plain" (some 1) []).toJson),
    (⟨"pair/runs/2.json"⟩, (Run.ofPair "2" "plain" (some 2) []).toJson),
    (⟨"pair/runs/3.json"⟩, (Run.ofPair "3" "tools" (some 1) [⟨"roslyn_find", true⟩]).toJson),
    (⟨"pair/runs/4.json"⟩, (Run.ofPair "4" "TOOLS" (some 2) [⟨"roslyn_find", true⟩]).toJson)]
  clock := "now"
  answered := 0

private def pairOptions : GateOptions :=
  ⟨⟨"pair/manifest.json"⟩, ⟨"pair/runs"⟩, ⟨"out"⟩, .empty, true, 20⟩

theorem gatePassed_pair : ∃ course : Course Store.inMemory (fun _ _ => false) pairOptions
    pairWorkspace, (∃ r, (run Store.inMemory (probe fun _ _ => false) (pure false)
      pairOptions).Gives pairWorkspace r course.finish ∧ r.gatePassed = true) ∧
      course.loaded.manifest.Unremarkable course.runs := by
  let gate : Attempt (StateM Workspace) GateReport :=
    run Store.inMemory (probe fun _ _ => false) (pure false) pairOptions
  have passes : ((gate.outcome pairWorkspace).1.toOption.map (·.gatePassed)) = some true := by
    decide +kernel
  obtain ⟨r, succeeds, passes⟩ := Option.map_eq_some_iff.mp passes
  have given := gives_of_toOption_eq_some succeeds
  obtain ⟨course, -, -⟩ := (run_gives_iff _ _ _ _ _ _).mp given
  obtain ⟨r', given', passed⟩ := course.gatePassed_iff
  obtain ⟨rfl, -⟩ := given.unique given'
  exact ⟨course, ⟨r, given', passes⟩, (passed.mp passes).2.2.2 rfl⟩

end Course
end Gate
end ToolTrial
