import ToolTrial.Proofs.Gate
import ToolTrial.Proofs.Outputs
import ToolTrial.Proofs.Renewal

/-!
The gate run again.  Where the reports of a gate lie neither among the runs nor in the place of the
manifest, what a gate loads is what it would load before it left its reports.  Run again, it reports
the same at another time.
-/

set_option autoImplicit false
set_option relaxedAutoImplicit false

namespace ToolTrial

def Json.without (key : String) : Json → Json
  | .object members => .object (members.filter fun m => m.1 ≠ key)
  | j => j

def Workspace.remember (w : Workspace) (path : Path) (document : Json) : Workspace :=
  { w with documents := w.documents.insert path document }

namespace Gate

open Attempt

def savedNames : List String := [manifestReportName, runReportName, scoreName, gateReportName]

theorem isName_of_mem_savedNames {name : String} (h : name ∈ savedNames) : Path.IsName name := by
  have listed : savedNames ⊆ outputNames := by decide
  exact isName_of_mem_outputNames (listed h)

/-- The documents of a store in memory after a gate has left its reports in a directory. -/
def leave (dir : Path) (manifest runs score gate : Json) (docs : Documents) : Documents :=
  (((docs.insert (dir.child manifestReportName) manifest).insert
    (dir.child runReportName) runs).insert (dir.child scoreName) score).insert (reportPath dir) gate

section Leave

variable {dir out : Path} {manifest runs score gate : Json} {docs : Documents}

theorem lookup_leave (q : Path) : (leave out manifest runs score gate docs).lookup q =
    if (reportPath out).same q then some gate
    else if (out.child scoreName).same q then some score
    else if (out.child runReportName).same q then some runs
    else if (out.child manifestReportName).same q then some manifest
    else docs.lookup q := by
  simp only [leave, Documents.lookup_insert]

theorem found_leave (elsewhere : dir.same out = false) (pattern : Pattern) :
    Store.found dir pattern (leave out manifest runs score gate docs) =
      Store.found dir pattern docs := by
  have apart {name : String} (saved : name ∈ savedNames) (docs : Documents) (document : Json) :
      Store.found dir pattern (docs.insert (out.child name) document) =
        Store.found dir pattern docs :=
    Store.found_insert_elsewhere (isName_of_mem_savedNames saved) elsewhere pattern docs document
  rw [leave, reportPath, apart (by simp [savedNames]), apart (by simp [savedNames]),
    apart (by simp [savedNames]), apart (by simp [savedNames])]

/-- Reports that are left again, the same but for one member of some, leave all documents the same
but for that member. -/
theorem lookup_leave_again {key : String} {score' gate' : Json}
    (sameScore : score'.without key = score.without key)
    (sameGate : gate'.without key = gate.without key)
    (q : Path) :
    ((leave out manifest runs score' gate'
        (leave out manifest runs score gate docs)).lookup q).map (Json.without key) =
      ((leave out manifest runs score gate docs).lookup q).map (Json.without key) := by
  simp only [lookup_leave]
  split
  · exact congrArg some sameGate
  split
  · exact congrArg some sameScore
  split
  · rfl
  split <;> rfl

end Leave

/-- What a gate reports on a loaded manifest and on loaded runs, where prompt files are looked for
in one state. -/
def reportOn (exist : Workspace → Path → Bool) (options : GateOptions) (l : LoadedManifest)
    (runs : List Run) (w : Workspace) : GateReport :=
  report options w.clock (manifestReport exist options l w) (runReport options l.manifest runs)
    (scoreReport options l runs w.clock)

def documentsOf (exist : Workspace → Path → Bool) (options : GateOptions) (l : LoadedManifest)
    (runs : List Run) (w : Workspace) : Documents :=
  leave options.outDir (manifestReport exist options l w).toJson
    (runReport options l.manifest runs).toJson (scoreReport options l runs w.clock).toJson
    (reportOn exist options l runs w).toJson w.documents

/-- What a gate in memory loads. -/
structure Inputs (options : GateOptions) (docs : Documents) (l : LoadedManifest) (runs : List Run) :
    Prop where
  manifest : ∃ document, docs.lookup options.manifestPath = some document ∧
    LoadedManifest.ofDocument options.manifestPath document = .ok l
  runsThere : Store.found options.runsDir options.runFilePattern docs ≠ [] ∨
    docs.hasDirectory options.runsDir = true
  runs : Run.ofDocuments [] (Store.found options.runsDir options.runFilePattern docs) = .ok runs

/-- None of the reports of a gate is an input of it. -/
structure ApartFromInputs (options : GateOptions) : Prop where
  runs : options.runsDir.same options.outDir = false
  manifest : ∀ name ∈ savedNames, (options.outDir.child name).same options.manifestPath = false

namespace Course

variable {exist : Workspace → Path → Bool} {options : GateOptions} {w : Workspace}

private theorem inMemory_save_gives (path : Path) (document : Json) (w : Workspace) :
    (Store.inMemory.save path document).Gives w () (w.remember path document) :=
  rfl

theorem finish_inMemory (course : Course Store.inMemory exist options w) :
    course.gateReport = reportOn exist options course.loaded course.runs w ∧
      course.finish = { w with
        disk := course.summarized.disk
        documents := documentsOf exist options course.loaded course.runs w } := by
  obtain ⟨loaded, manifestLoaded, manifestReported, runs, runsLoaded, runsReported, scoreReported,
    summarized, finish, loadsManifest, savesManifestReport, loadsRuns, savesRunReport, savesScore,
    writesSummary, savesGateReport⟩ := course
  -- in memory a load changes nothing and a save has one outcome, so each state follows from the
  -- first
  obtain ⟨document, loads, -⟩ := (loadManifest_gives_iff _ _ _ _ _).mp loadsManifest
  obtain ⟨-, rfl⟩ := (Store.inMemory_load_gives_iff _ _ _ _).mp loads
  obtain ⟨-, rfl⟩ := savesManifestReport.unique (inMemory_save_gives _ _ _)
  obtain ⟨documents, found, -⟩ := (loadRuns_gives_iff _ _ _ _ _ _).mp loadsRuns
  obtain ⟨-, -, rfl⟩ := (Store.inMemory_loadAll_gives_iff _ _ _ _ _).mp found
  obtain ⟨-, rfl⟩ := savesRunReport.unique (inMemory_save_gives _ _ _)
  obtain ⟨-, rfl⟩ := savesScore.unique (inMemory_save_gives _ _ _)
  obtain ⟨-, rfl⟩ := savesGateReport.unique (inMemory_save_gives _ _ _)
  have isName : Path.IsName summaryName := isName_of_mem_outputNames (by decide)
  obtain ⟨g, written, d, -, -, -, rfl⟩ := Workspace.exists_of_writeWhole isName writesSummary
  exact ⟨rfl, rfl⟩

theorem inputs_finish (apart : ApartFromInputs options)
    (course : Course Store.inMemory exist options w) :
    Inputs options course.finish.documents course.loaded course.runs := by
  obtain ⟨-, ended⟩ := course.finish_inMemory
  obtain ⟨document, loads, read⟩ := (loadManifest_gives_iff _ _ _ _ _).mp course.loadsManifest
  obtain ⟨found, unmoved⟩ := (Store.inMemory_load_gives_iff _ _ _ _).mp loads
  have reported := (course.savesManifestReport.unique (inMemory_save_gives _ _ _)).2
  obtain ⟨documents, runsFound, reads⟩ := (loadRuns_gives_iff _ _ _ _ _ _).mp course.loadsRuns
  obtain ⟨there, rfl, -⟩ := (Store.inMemory_loadAll_gives_iff _ _ _ _ _).mp runsFound
  have same : course.manifestReported.documents = w.documents.insert
      (options.outDir.child manifestReportName)
      (manifestReport exist options course.loaded w).toJson := by
    rw [reported, ← unmoved]
    rfl
  rw [same, Store.found_insert_elsewhere (isName_of_mem_savedNames (by simp [savedNames]))
    apart.runs] at there reads
  rw [ended]
  refine ⟨⟨document, ?_, read⟩, ?_, ?_⟩
  · show (leave _ _ _ _ _ _).lookup _ = _
    have elsewhere {name : String} (saved : name ∈ savedNames) :
        ¬ (options.outDir.child name).same options.manifestPath = true := by
      rw [apart.manifest name saved]
      simp
    rw [lookup_leave, reportPath, if_neg (elsewhere (by simp [savedNames])),
      if_neg (elsewhere (by simp [savedNames])), if_neg (elsewhere (by simp [savedNames])),
      if_neg (elsewhere (by simp [savedNames])), found]
  · refine there.imp (fun some => ?_) fun directory => ?_
    · show Store.found _ _ (leave _ _ _ _ _ _) ≠ []
      rwa [found_leave apart.runs]
    · show (leave _ _ _ _ _ _).hasDirectory _ = true
      unfold leave
      iterate 3 apply Documents.hasDirectory_insert_of
      exact directory
  · show Run.ofDocuments [] (Store.found _ _ (leave _ _ _ _ _ _)) = _
    rwa [found_leave apart.runs]

theorem exists_inMemory {l : LoadedManifest} {runs : List Run} (apart : ApartFromInputs options)
    (inputs : Inputs options w.documents l runs)
    (writes : ∀ (v : Workspace) (text : String), v.disk = w.disk →
      ∃ d, (FileSystem.writeWhole (options.outDir.child summaryName) text :
        Attempt (StateM Workspace) Unit).Gives v () { v with disk := d }) :
    ∃ course : Course Store.inMemory exist options w, course.loaded = l ∧ course.runs = runs := by
  obtain ⟨⟨document, found, read⟩, there, reads⟩ := inputs
  let w₁ := w.remember (options.outDir.child manifestReportName)
    (manifestReport exist options l w).toJson
  let w₂ := w₁.remember (options.outDir.child runReportName)
    (runReport options l.manifest runs).toJson
  let w₃ := w₂.remember (options.outDir.child scoreName) (scoreReport options l runs w.clock).toJson
  obtain ⟨d, summary⟩ := writes w₃ (Summary.render (scoreReport options l runs w.clock)
    (runReport options l.manifest runs) options.maxExportIssues) rfl
  have loads : (loadManifest Store.inMemory options.manifestPath).Gives w l w :=
    (loadManifest_gives_iff _ _ _ _ _).mpr
      ⟨document, (Store.inMemory_load_gives_iff _ _ _ _).mpr ⟨found, rfl⟩, read⟩
  have kept : Store.found options.runsDir options.runFilePattern w₁.documents =
      Store.found options.runsDir options.runFilePattern w.documents :=
    Store.found_insert_elsewhere (isName_of_mem_savedNames (by simp [savedNames])) apart.runs _ _ _
  have loadsRuns : (loadRuns Store.inMemory options.runsDir options.runFilePattern).Gives
      w₁ runs w₁ := by
    refine (loadRuns_gives_iff _ _ _ _ _ _).mpr ⟨_, ?_, reads⟩
    refine (Store.inMemory_loadAll_gives_iff _ _ _ _ _).mpr ⟨?_, kept, rfl⟩
    rw [kept]
    exact there.imp_right fun directory => Documents.hasDirectory_insert_of directory _ _
  exact ⟨⟨l, w, w₁, runs, w₁, w₂, w₃, { w₃ with disk := d }, _, loads, rfl, loadsRuns, rfl, rfl,
    summary, rfl⟩, rfl, rfl⟩

end Course

section Times

variable (exist : Path → Bool) (options : GateOptions) (l : LoadedManifest) (runs : List Run)

private theorem manifestReport_congr (w w' : Workspace) :
    manifestReport (fun _ => exist) options l w = manifestReport (fun _ => exist) options l w' :=
  rfl

private theorem without_scoreReport (now then_ : String) :
    (scoreReport options l runs now).toJson.without "generated_at" =
      (scoreReport options l runs then_).toJson.without "generated_at" := by
  simp [scoreReport, ScoreReport.ofScorecard, ScoreReport.toJson, Json.without]

private theorem reportOn_at (w w' : Workspace) :
    reportOn (fun _ => exist) options l runs w' =
      { reportOn (fun _ => exist) options l runs w with generatedAt := w'.clock } := by
  have found : findings (manifestReport (fun _ => exist) options l w)
      (runReport options l.manifest runs) (scoreReport options l runs w'.clock)
      options.failOnRunWarnings =
    findings (manifestReport (fun _ => exist) options l w)
      (runReport options l.manifest runs) (scoreReport options l runs w.clock)
      options.failOnRunWarnings := by
    simp only [findings, scoreReport, ScoreReport.ofScorecard]
  have enough : (scoreReport options l runs w'.clock).sufficientData =
      (scoreReport options l runs w.clock).sufficientData := by
    simp only [scoreReport, ScoreReport.ofScorecard]
  simp only [reportOn, report, manifestReport_congr exist options l w' w, found, enough]

private theorem without_reportOn (w w' : Workspace) :
    (reportOn (fun _ => exist) options l runs w').toJson.without "generated_at" =
      (reportOn (fun _ => exist) options l runs w).toJson.without "generated_at" := by
  rw [reportOn_at exist options l runs w w']
  simp [GateReport.toJson, Json.without]

end Times

/-- The gate, run again on documents in memory and never stopped, reports the same but for the time,
and leaves every document as it is but for the time in it. -/
theorem run_again_gives {exist : Path → Bool} {options : GateOptions} {w w' : Workspace}
    {r : GateReport} (apart : ApartFromInputs options)
    (given : (run Store.inMemory (probe fun _ => exist) (pure false) options).Gives w r w')
    (later : String) :
    ∃ r' w'', (run Store.inMemory (probe fun _ => exist) (pure false) options).Gives
        { w' with clock := later } r' w'' ∧
      { r' with generatedAt := r.generatedAt } = r ∧
      ∀ path, (w''.documents.lookup path).map (Json.without "generated_at") =
        (w'.documents.lookup path).map (Json.without "generated_at") := by
  obtain ⟨course, rfl, rfl⟩ := (run_gives_iff _ _ _ _ _ _).mp given
  obtain ⟨reported, ended⟩ := course.finish_inMemory
  have writes (v : Workspace) (text : String) (same : v.disk = course.finish.disk) :
      ∃ d, (FileSystem.writeWhole (options.outDir.child summaryName) text :
        Attempt (StateM Workspace) Unit).Gives v () { v with disk := d } := by
    have isName : Path.IsName summaryName := isName_of_mem_outputNames (by decide)
    rw [ended] at same
    exact Workspace.writeWhole_again isName course.writesSummary same text
  have inputs := course.inputs_finish apart
  have repeats : ∃ again : Course Store.inMemory (fun _ => exist) options
      { course.finish with clock := later },
      again.loaded = course.loaded ∧ again.runs = course.runs :=
    Course.exists_inMemory apart inputs writes
  obtain ⟨again, loaded, runs⟩ := repeats
  obtain ⟨reported', ended'⟩ := again.finish_inMemory
  refine ⟨again.gateReport, again.finish, (run_gives_iff _ _ _ _ _ _).mpr ⟨again, rfl, rfl⟩, ?_, ?_⟩
  · rw [reported, reported', loaded, runs, reportOn_at exist options _ _ w]
  · intro path
    have before : course.finish.documents =
        documentsOf (fun _ => exist) options course.loaded course.runs w := by rw [ended]
    have after : again.finish.documents = documentsOf (fun _ => exist) options course.loaded
        course.runs { course.finish with clock := later } := by rw [ended', loaded, runs]
    rw [after]
    show ((leave _ _ _ _ _ course.finish.documents).lookup path).map _ = _
    rw [before]
    exact lookup_leave_again (without_scoreReport options _ _ _ _)
      (without_reportOn exist options _ _ _ _) path

private def pairBegun : Workspace where
  disk := Disk.empty ["work"]
  documents := [(⟨"pair/manifest.json"⟩, Manifest.pair.toJson),
    (⟨"pair/runs/1.json"⟩, (Run.ofPair "1" "plain" (some 1) []).toJson)]
  clock := "now"
  answered := 0

private def besideRuns : GateOptions :=
  ⟨⟨"pair/manifest.json"⟩, ⟨"pair/runs"⟩, ⟨"pair"⟩, .empty, true, 20⟩

theorem run_again_pair : ∃ r w' r' w'',
    (run Store.inMemory (probe fun _ _ => false) (pure false) besideRuns).Gives pairBegun r w' ∧
      (run Store.inMemory (probe fun _ _ => false) (pure false) besideRuns).Gives
        { w' with clock := "later" } r' w'' ∧
      { r' with generatedAt := r.generatedAt } = r := by
  let gate : Attempt (StateM Workspace) GateReport :=
    run Store.inMemory (probe fun _ _ => false) (pure false) besideRuns
  have ends : (gate.outcome pairBegun).1.toOption.isSome = true := by decide +kernel
  obtain ⟨r, succeeds⟩ := Option.isSome_iff_exists.mp ends
  have given := gives_of_toOption_eq_some succeeds
  have apart : ApartFromInputs besideRuns := ⟨by decide +kernel, by decide +kernel⟩
  obtain ⟨r', w'', again, same, -⟩ := run_again_gives apart given "later"
  exact ⟨r, _, r', w'', given, again, same⟩

end Gate
end ToolTrial
