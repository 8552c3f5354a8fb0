import ToolTrial.Proofs.Ending
import ToolTrial.Proofs.Gate
import ToolTrial.Proofs.GateDocument
import ToolTrial.Proofs.Outputs

/-!
What a gate leaves behind, however it ends.  When it gives a report, all of its outputs are there
and agree with each other; when it is stopped, or cannot load what it works on, the outputs are
those of the stages before, and no report is there that was not there already.
-/

set_option autoImplicit false
set_option relaxedAutoImplicit false

namespace ToolTrial

/-- A member of one document is a member of another one, maybe under another name. -/
def Json.Shares (j : Json) (key : String) (j' : Json) (key' : String) : Prop :=
  ∃ value, j.get? key = some value ∧ j'.get? key' = some value

private theorem Json.Shares.of_eq {j j' value value' : Json} {key key' : String}
    (found : j.get? key = some value) (found' : j'.get? key' = some value')
    (same : value = value') :
    j.Shares key j' key' :=
  ⟨value', same ▸ found, found'⟩

namespace Gate

open Attempt

def stageOutputs (options : GateOptions) (manifest : ManifestReport) (runs : RunReport)
    (score : ScoreReport) : List (String × Output) :=
  [(manifestReportName, .document manifest.toJson), (runReportName, .document runs.toJson),
    (scoreName, .document score.toJson),
    (summaryName, .text (Summary.render score runs options.maxExportIssues))]

def outputs (options : GateOptions) (manifest : ManifestReport) (runs : RunReport)
    (score : ScoreReport) (gate : GateReport) : List (String × Output) :=
  stageOutputs options manifest runs score ++ [(gateReportName, .document gate.toJson)]

def writings : List Activity :=
  [.writingManifestReport, .writingRunReport, .writingScoreReport, .writingSummary,
    .writingGateReport]

/-- A failure of one of the writes of a gate. -/
def WhileWriting (f : Failure) : Prop :=
  ∃ activity ∈ writings, f.activities.head? = some activity

def Quiet (stopped : StateM Workspace Bool) : Prop :=
  ∀ v : Workspace, v.Alike (stopped v).2

variable (kind : Store.Kind) (exist : Workspace → Path → Bool) (stopped : StateM Workspace Bool)
  (options : GateOptions) (w : Workspace)

/-- A gate is not stopped at once, and loads a manifest. -/
structure Begun (l : LoadedManifest) : Prop where
  goesOn : (stopped w).1 = false
  loadsManifest : (loadManifest kind.store options.manifestPath).Gives (stopped w).2 l (stopped w).2

/-- What a gate reports on a manifest before anything has been left. -/
def Checks (l : LoadedManifest) (manifest : ManifestReport) : Prop :=
  ∃ v, w.Alike v ∧ manifest = manifestReport exist options l v

/-- What a gate loads, after its report on the manifest has been left, and how it scores that. -/
structure Scores (l : LoadedManifest) (manifest : ManifestReport) (runs : List Run)
    (score : ScoreReport) : Prop where
  loadsRuns : ∃ v, Left kind options.outDir [(manifestReportName, .document manifest.toJson)] w v ∧
    (loadRuns kind.store options.runsDir options.runFilePattern).Gives v runs v
  scored : ∃ now, score = scoreReport options l runs now

/-- The outputs of a gate that has loaded a manifest, as far as it came. -/
inductive Made (l : LoadedManifest) : List (String × Output) → Prop
  | nothing : Made l []
  | checked {manifest : ManifestReport} (checks : Checks exist options w l manifest) :
    Made l [(manifestReportName, .document manifest.toJson)]
  | scored {manifest : ManifestReport} {runs : List Run} {score : ScoreReport}
    {left : List (String × Output)} (checks : Checks exist options w l manifest)
    (scores : Scores kind options w l manifest runs score)
    (first : left <+: stageOutputs options manifest (runReport options l.manifest runs) score) :
    Made l left

/-- A gate ends at a stage, for it is stopped there or what the stage loads cannot be loaded, after
the stages before it have left their outputs. -/
structure Interrupted (stage : Stage) (left : List (String × Output)) (f : Failure)
    (w' : Workspace) : Prop where
  names : left.map Prod.fst = stage.outputsBefore
  made : stage ≠ .manifestLoad →
    ∃ l, Begun kind stopped options w l ∧ Made kind exist options w l left
  leaves : Left kind options.outDir left w w'
  noReport : kind.Spared w w' (reportPath options.outDir)
  reason : (f = Failure.refuse (.stopped stage.name) ∧ ∃ v, stopped v = (true, w')) ∨
    (stage = .manifestLoad ∧
      (loadManifest kind.store options.manifestPath).outcome w' = (.error f, w')) ∨
    (stage = .runLoad ∧
      (loadRuns kind.store options.runsDir options.runFilePattern).outcome w' = (.error f, w'))

def Stops (f : Failure) (w' : Workspace) : Prop :=
  WhileWriting f ∨ ∃ stage left, Interrupted kind exist stopped options w stage left f w'

/-- A gate ends with a report on what it has loaded, after all stages have left their outputs. -/
structure Completed (l : LoadedManifest) (runs : List Run) (manifest : ManifestReport)
    (score : ScoreReport) (r : GateReport) (w' : Workspace) : Prop where
  begun : Begun kind stopped options w l
  checks : Checks exist options w l manifest
  scores : Scores kind options w l manifest runs score
  reports : r = report options r.generatedAt manifest (runReport options l.manifest runs) score
  leaves : Left kind options.outDir
    (outputs options manifest (runReport options l.manifest runs) score r) w w'

/-- The documents that a gate leaves say the same of what they have in common. -/
structure Concordant (manifest runs score gate : Json) : Prop where
  manifestValid : gate.Shares "manifest_valid" manifest "valid"
  runsValid : gate.Shares "runs_valid" runs "valid"
  errors : gate.Shares "run_validation_error_count" runs "error_count"
  warnings : gate.Shares "run_validation_warning_count" runs "warning_count"
  enough : gate.Shares "sufficient_data" score "sufficient_data"
  total : score.Shares "total_runs" runs "total_runs"

section Steps

variable {kind exist stopped options w} {α β : Type} {left : List (String × Output)}
  {v t : Workspace}

private theorem ends_checkpoint (stopped : StateM Workspace Bool) (stage : Stage) (v : Workspace) :
    (checkpoint stopped stage).Ends v (fun _ t => stopped v = (false, t))
      (fun f t => f = Failure.refuse (.stopped stage.name) ∧ stopped v = (true, t)) := by
  apply (ends_liftM stopped v).bind
  · intro isStopped t said
    cases isStopped with
    | false => exact ends_pure said
    | true =>
      constructor
      · intro _ _ given
        cases given
      · intro f u failed
        obtain ⟨rfl, rfl⟩ : Failure.refuse (.stopped stage.name) = f ∧ t = u := by
          simpa [Attempt.refuse] using failed
        exact ⟨rfl, said⟩
  · exact fun _ _ => False.elim

private theorem ends_save (kind : Store.Kind) (activity : Activity) (dir : Path) {name : String}
    (isName : Path.IsName name) (j : Json) (v : Workspace) :
    (Attempt.during activity (kind.store.save (dir.child name) j)).Ends v
      (fun _ t => Left kind dir [(name, .document j)] v t)
      (fun f _ => f.activities.head? = some activity) := by
  have base : (kind.store.save (dir.child name) j).Ends v
      (fun _ t => Left kind dir [(name, .document j)] v t) (fun _ _ => True) :=
    ⟨fun _ _ saved => Left.of_save isName saved, fun _ _ _ => trivial⟩
  exact base.during activity fun _ _ _ => rfl

private theorem ends_reportManifest (kind : Store.Kind) (exist : Workspace → Path → Bool)
    (options : GateOptions) (l : LoadedManifest) (v : Workspace) :
    (reportManifest kind.store (probe exist) l (options.outDir.child manifestReportName)).Ends v
      (fun r t => r = manifestReport exist options l v ∧
        Left kind options.outDir [(manifestReportName, .document r.toJson)] v t)
      (fun f _ => f.activities.head? = some .writingManifestReport) := by
  apply (ends_liftM (manifestIssues (probe exist) l) v).bind
  · intro issues t looked
    rw [manifestIssues_probe] at looked
    obtain ⟨rfl, rfl⟩ := Prod.mk.inj looked
    apply (ends_save kind .writingManifestReport options.outDir
      (isName_of_mem_outputNames (by decide)) (manifestReport exist options l v).toJson v).bind
    · intro _ t leaves
      exact ends_pure ⟨rfl, leaves⟩
    · exact fun _ _ wrote => wrote
  · exact fun _ _ => False.elim

private theorem ends_reportRuns (kind : Store.Kind) (options : GateOptions) (m : Manifest)
    (runs : List Run) (v : Workspace) :
    (reportRuns kind.store m runs (options.outDir.child runReportName)).Ends v
      (fun r t => r = runReport options m runs ∧
        Left kind options.outDir [(runReportName, .document r.toJson)] v t)
      (fun f _ => f.activities.head? = some .writingRunReport) := by
  apply (ends_save kind .writingRunReport options.outDir
    (isName_of_mem_outputNames (by decide)) (runReport options m runs).toJson v).bind
  · intro _ t leaves
    exact ends_pure ⟨rfl, leaves⟩
  · exact fun _ _ wrote => wrote

private theorem ends_reportScore (kind : Store.Kind) (options : GateOptions) (l : LoadedManifest)
    (runs : List Run) (v : Workspace) :
    (reportScore kind.store l runs (options.outDir.child scoreName)).Ends v
      (fun r t => (∃ now, r = scoreReport options l runs now) ∧
        Left kind options.outDir [(scoreName, .document r.toJson)] v t)
      (fun f _ => f.activities.head? = some .writingScoreReport) := by
  apply (ends_liftM (FileSystem.timestamp : StateM Workspace String) v).bind
  · intro now t told
    obtain ⟨rfl, rfl⟩ := Prod.mk.inj told
    apply (ends_save kind .writingScoreReport options.outDir
      (isName_of_mem_outputNames (by decide)) (scoreReport options l runs v.clock).toJson v).bind
    · intro _ t leaves
      exact ends_pure ⟨⟨v.clock, rfl⟩, leaves⟩
    · exact fun _ _ wrote => wrote
  · exact fun _ _ => False.elim

private theorem ends_writeSummary (kind : Store.Kind) (dir : Path) (text : String) (v : Workspace) :
    (Attempt.during .writingSummary (FileSystem.writeWhole (dir.child summaryName) text) :
      Attempt (StateM Workspace) Unit).Ends v
      (fun _ t => Left kind dir [(summaryName, .text text)] v t)
      (fun f _ => f.activities.head? = some .writingSummary) := by
  have isName : Path.IsName summaryName := isName_of_mem_outputNames (by decide)
  have base : (FileSystem.writeWhole (dir.child summaryName) text :
      Attempt (StateM Workspace) Unit).Ends v
      (fun _ t => Left kind dir [(summaryName, .text text)] v t) (fun _ _ => True) :=
    ⟨fun _ _ wrote => Left.of_writeWhole kind isName wrote, fun _ _ _ => trivial⟩
  exact base.during .writingSummary fun _ _ _ => rfl

private theorem interrupted_of_left {stage : Stage} {f : Failure}
    (leaves : Left kind options.outDir left w t)
    (names : left.map Prod.fst = stage.outputsBefore)
    (made : stage ≠ .manifestLoad →
      ∃ l, Begun kind stopped options w l ∧ Made kind exist options w l left)
    (reason : (f = Failure.refuse (.stopped stage.name) ∧ ∃ v, stopped v = (true, t)) ∨
      (stage = .manifestLoad ∧
        (loadManifest kind.store options.manifestPath).outcome t = (.error f, t)) ∨
      (stage = .runLoad ∧
        (loadRuns kind.store options.runsDir options.runFilePattern).outcome t = (.error f, t))) :
    Interrupted kind exist stopped options w stage left f t := by
  have noReport : kind.Spared w t (reportPath options.outDir) := by
    apply leaves.spared
    · rw [names]
      exact outputsBefore_prefix stage
    · decide
    · rw [names]
      exact not_mem_outputsBefore stage
  exact ⟨names, made, leaves, noReport, reason⟩

private theorem ends_after_checkpoint {stage : Stage} {next : Attempt (StateM Workspace) α}
    {good : α → Workspace → Prop} (quiet : Quiet stopped)
    (leaves : Left kind options.outDir left w v)
    (names : left.map Prod.fst = stage.outputsBefore)
    (made : stage ≠ .manifestLoad →
      ∃ l, Begun kind stopped options w l ∧ Made kind exist options w l left)
    (goesOn : ∀ t, stopped v = (false, t) → Left kind options.outDir left w t →
      next.Ends t good (Stops kind exist stopped options w)) :
    (checkpoint stopped stage >>= fun _ => next).Ends v good
      (Stops kind exist stopped options w) := by
  have alike {b : Bool} {t : Workspace} (said : stopped v = (b, t)) : v.Alike t := by
    have same := quiet v
    rwa [said] at same
  apply (ends_checkpoint stopped stage v).bind
  · intro _ t said
    exact goesOn t said (leaves.alike (alike said))
  · rintro f t ⟨cause, said⟩
    exact .inr ⟨stage, left,
      interrupted_of_left (leaves.alike (alike said)) names made (.inl ⟨cause, v, said⟩)⟩

private theorem ends_after_write {attempt : Attempt (StateM Workspace) α}
    {next : α → Attempt (StateM Workspace) β} {good : α → Workspace → Prop}
    {good' : β → Workspace → Prop} {activity : Activity} (listed : activity ∈ writings)
    (writes : attempt.Ends v good fun f _ => f.activities.head? = some activity)
    (goesOn : ∀ a t, good a t → (next a).Ends t good' (Stops kind exist stopped options w)) :
    (attempt >>= next).Ends v good' (Stops kind exist stopped options w) :=
  writes.bind goesOn fun _ _ wrote => .inl ⟨activity, listed, wrote⟩

end Steps

/-- A gate comes to its end, or it is interrupted, or one of its writes fails. -/
theorem ends_run (quiet : Quiet stopped) :
    (run kind.store (probe exist) stopped options).Ends w
      (fun r w' => ∃ l runs manifest score,
        Completed kind exist stopped options w l runs manifest score r w')
      (Stops kind exist stopped options w) := by
  -- carried from stage to stage: the outputs so far are exactly what has been left
  have nothing : Left kind options.outDir [] w w := Left.nil kind options.outDir ⟨rfl, rfl⟩
  apply ends_after_checkpoint quiet nothing rfl (absurd rfl)
  intro v₀ said left₀
  apply ((steady_loadManifest kind options.manifestPath).ends v₀).bind
  case worse =>
    rintro f t ⟨rfl, failed⟩
    exact .inr ⟨.manifestLoad, [],
      interrupted_of_left left₀ rfl (absurd rfl) (.inr (.inl ⟨rfl, failed⟩))⟩
  rintro l v₁ ⟨rfl, loads⟩
  have begun : Begun kind stopped options w l := by
    constructor <;> rw [said]
    exact loads
  have goesOn {left : List (String × Output)} (made : Made kind exist options w l left)
      (stage : Stage) : stage ≠ .manifestLoad →
        ∃ l, Begun kind stopped options w l ∧ Made kind exist options w l left :=
    fun _ => ⟨l, begun, made⟩
  apply ends_after_checkpoint quiet left₀ rfl (goesOn .nothing .manifestValidation)
  intro v₂ said₂ left₂
  have alike : w.Alike v₂ := by
    have first := quiet w
    have second := quiet v₁
    rw [said] at first
    rw [said₂] at second
    exact first.trans second
  apply ends_after_write (by decide) (ends_reportManifest kind exist options l v₂)
  rintro manifest v₃ ⟨checked, leaves⟩
  have checks : Checks exist options w l manifest := ⟨v₂, alike, checked⟩
  have left₃ := left₂.concat leaves ⟨_, rfl⟩
  apply ends_after_checkpoint quiet left₃ rfl (goesOn (.checked checks) .runLoad)
  intro v₄ _ left₄
  apply ((steady_loadRuns kind options.runsDir options.runFilePattern).ends v₄).bind
  case worse =>
    rintro f t ⟨rfl, failed⟩
    exact .inr ⟨.runLoad, _,
      interrupted_of_left left₄ rfl (goesOn (.checked checks) _) (.inr (.inr ⟨rfl, failed⟩))⟩
  rintro runs v₅ ⟨rfl, loadsRuns⟩
  apply ends_after_checkpoint quiet left₄ rfl (goesOn (.checked checks) .runValidation)
  intro v₆ _ left₆
  apply ends_after_write (by decide) (ends_reportRuns kind options l.manifest runs v₆)
  rintro _ v₇ ⟨rfl, leaves⟩
  have left₇ := left₆.concat leaves ⟨_, rfl⟩
  have scores {score : ScoreReport} (scored : ∃ now, score = scoreReport options l runs now) :
      Scores kind options w l manifest runs score := ⟨⟨v₅, left₄, loadsRuns⟩, scored⟩
  apply ends_after_checkpoint quiet left₇ rfl
    (goesOn (.scored checks (scores ⟨"", rfl⟩) ⟨_, rfl⟩) .scoring)
  intro v₈ _ left₈
  apply ends_after_write (by decide) (ends_reportScore kind options l runs v₈)
  rintro score v₉ ⟨scored, leaves⟩
  have left₉ := left₈.concat leaves ⟨_, rfl⟩
  apply ends_after_checkpoint quiet left₉ rfl
    (goesOn (.scored checks (scores scored) ⟨_, rfl⟩) .summaryExport)
  intro evaluated _ left
  apply ends_after_write (by decide) (ends_writeSummary kind options.outDir _ evaluated)
  intro _ summarized leaves
  have left' := left.concat leaves ⟨_, rfl⟩
  apply (ends_liftM (FileSystem.timestamp : StateM Workspace String) summarized).bind
  case worse => exact fun _ _ => False.elim
  intro now told timed
  obtain ⟨rfl, rfl⟩ := Prod.mk.inj timed
  apply ends_after_checkpoint quiet left' rfl
    (goesOn (.scored checks (scores scored) ⟨_, rfl⟩) .gateReport)
  intro judged _ left''
  apply ends_after_write (by decide) (ends_save kind .writingGateReport options.outDir
    (isName_of_mem_outputNames (by decide)) _ judged)
  intro _ finish leaves
  have all := left''.concat leaves ⟨_, rfl⟩
  exact ends_pure ⟨l, runs, manifest, score, begun, checks, scores scored, rfl, all⟩

section Reports

variable {kind exist stopped options w} {l : LoadedManifest} {runs : List Run}
  {manifest : ManifestReport} {score : ScoreReport} {r : GateReport} {w' : Workspace}

theorem Completed.concordant
    (h : Completed kind exist stopped options w l runs manifest score r w') :
    Concordant manifest.toJson (runReport options l.manifest runs).toJson score.toJson
      r.toJson := by
  have said {α : Type} (part : GateReport → α) : part r =
      part (report options r.generatedAt manifest (runReport options l.manifest runs) score) :=
    congrArg part h.reports
  have manifestValid : r.manifestValid = manifest.valid := said _
  have runsValid : r.runsValid = (runReport options l.manifest runs).validation.valid := said _
  have errors : r.runErrorCount = (runReport options l.manifest runs).validation.errorCount :=
    said _
  have warnings : r.runWarningCount = (runReport options l.manifest runs).validation.warningCount :=
    said _
  have enough : r.sufficientData = score.sufficientData := said _
  have total : score.totalRuns = (runReport options l.manifest runs).validation.totalRuns := by
    obtain ⟨now, scored⟩ := h.scores.scored
    rw [scored]
    rfl
  constructor
  · exact .of_eq rfl rfl (congrArg Json.bool manifestValid)
  · exact .of_eq rfl rfl (congrArg Json.bool runsValid)
  · exact .of_eq rfl rfl (congrArg Json.ofNat errors)
  · exact .of_eq rfl rfl (congrArg Json.ofNat warnings)
  · exact .of_eq rfl rfl (congrArg Json.bool enough)
  · exact .of_eq rfl rfl (congrArg Json.ofNat total)

theorem Completed.loadsReport
    (h : Completed kind exist stopped options w l runs manifest score r w') (small : r.Countable) :
    (kind.store.loadAs GateReport.decode (reportPath options.outDir)).Gives w' r w' :=
  h.leaves.loadsAs (by simp [outputs]) (GateReport.readable_toJson small)
    (GateReport.decode_toJson small)

end Reports

/-- Where no write fails, a gate that gives a report has left all of its outputs, which agree with
each other, and its report can be loaded; one that is stopped, or cannot load what it works on, has
left what the stages before leave.  Nothing else is changed, but files beside the outputs on a disk,
under the names of temporary ones, are used up. -/
theorem run_leaves (kind : Store.Kind) (exist : Workspace → Path → Bool)
    {stopped : StateM Workspace Bool} (quiet : Quiet stopped) (options : GateOptions)
    (w : Workspace) :
    (∀ f w', (run kind.store (probe exist) stopped options).outcome w = (.error f, w') →
      ¬ WhileWriting f →
      ∃ stage left, Interrupted kind exist stopped options w stage left f w') ∧
    ∀ r w', (run kind.store (probe exist) stopped options).Gives w r w' →
      ∃ l runs manifest score,
        Completed kind exist stopped options w l runs manifest score r w' ∧
        Concordant manifest.toJson (runReport options l.manifest runs).toJson score.toJson
          r.toJson ∧
        (r.Countable →
          (kind.store.loadAs GateReport.decode (reportPath options.outDir)).Gives w' r w') := by
  have ends := ends_run kind exist stopped options w quiet
  constructor
  · intro f w' failed written
    exact (ends.fails f w' failed).resolve_left written
  · intro r w' given
    obtain ⟨l, runs, manifest, score, completed⟩ := ends.gives r w' given
    exact ⟨l, runs, manifest, score, completed, completed.concordant, completed.loadsReport⟩

private def pairRecorded : Workspace where
  disk := Disk.empty ["work"]
  documents := [(⟨"pair/manifest.json"⟩, Manifest.pair.toJson),
    (⟨"pair/runs/1.json"⟩, (Run.ofPair "1" "plain" (some 1) []).toJson)]
  clock := "now"
  answered := 0

private def intoOut : GateOptions :=
  ⟨⟨"pair/manifest.json"⟩, ⟨"pair/runs"⟩, ⟨"out"⟩, .empty, true, 20⟩

/-- The answer of someone who wants work to stop when asked for the third time. -/
private def thirdTime : StateM Workspace Bool :=
  fun w => (decide (w.answered = 2), { w with answered := w.answered + 1 })

theorem run_leaves_pair :
    (∃ r w', (run Store.inMemory (probe fun _ _ => false) (pure false) intoOut).Gives
        pairRecorded r w' ∧
      (Store.inMemory.loadAs GateReport.decode (reportPath intoOut.outDir)).Gives w' r w') ∧
    ∃ w' stage left, (run Store.inMemory (probe fun _ _ => false) thirdTime intoOut).outcome
        pairRecorded = (.error (Failure.refuse (.stopped "run load")), w') ∧
      Interrupted .inMemory (fun _ _ => false) thirdTime intoOut pairRecorded stage left
        (Failure.refuse (.stopped "run load")) w' := by
  constructor
  · have quiet : Quiet (pure false) := fun _ => ⟨rfl, rfl⟩
    let gate : Attempt (StateM Workspace) GateReport :=
      run Store.inMemory (probe fun _ _ => false) (pure false) intoOut
    have ends : ((gate.outcome pairRecorded).1.toOption.any fun r =>
        decide (r.runErrorCount < UInt64.size ∧ r.runWarningCount < UInt64.size)) = true := by
      decide +kernel
    obtain ⟨r, succeeds, counts⟩ := (Option.any_eq_true _ _).mp ends
    obtain ⟨errors, warnings⟩ := of_decide_eq_true counts
    have given := gives_of_toOption_eq_some succeeds
    have leaves := run_leaves .inMemory (fun _ _ => false) quiet intoOut pairRecorded
    obtain ⟨_, _, _, _, -, -, loads⟩ := leaves.2 r _ given
    exact ⟨r, _, given, loads ⟨errors, warnings⟩⟩
  · have quiet : Quiet thirdTime := fun _ => ⟨rfl, rfl⟩
    let gate : Attempt (StateM Workspace) GateReport :=
      run Store.inMemory (probe fun _ _ => false) thirdTime intoOut
    have stops : (gate.outcome pairRecorded).1 = .error (Failure.refuse (.stopped "run load")) := by
      decide +kernel
    have failed : gate.outcome pairRecorded = (.error (Failure.refuse (.stopped "run load")),
        (gate.outcome pairRecorded).2) := by
      rw [← stops]
    have written : ¬ WhileWriting (Failure.refuse (.stopped "run load")) := by
      simp [WhileWriting, Failure.refuse]
    have leaves := run_leaves .inMemory (fun _ _ => false) quiet intoOut pairRecorded
    obtain ⟨stage, left, interrupted⟩ := leaves.1 _ _ failed written
    exact ⟨_, stage, left, failed, interrupted⟩

theorem loadManifest_of_keeps {kind : Store.Kind} {m : Manifest} (loadable : m.Loadable)
    (small : m.runsPerCell < UInt32.size) {path : Path} {w : Workspace}
    (keeps : kind.Keeps w path m.toJson) :
    (loadManifest kind.store path).Gives w ⟨m, path, m.toJson.sha256⟩ w := by
  rw [loadManifest_gives_iff]
  exact ⟨m.toJson, Store.Kind.loads_of_keeps keeps (Manifest.readable_toJson small),
    LoadedManifest.ofDocument_toJson path loadable small⟩

/-- The small experiment on a disk, without a directory of runs, and a document that lies beside the
place of the first output. -/
private def besideOutput : Workspace where
  disk := { workplace := ["work"], entries := [(["work"], .directory),
    (["work", "manifest.json"], .file (.text Manifest.pair.toJson.savedText)),
    (["work", "out"], .directory),
    (["work", "out", "manifest_validation.json.tmp"], .file (.text "null"))] }
  documents := []
  clock := "now"
  answered := 0

private def withoutRuns : GateOptions :=
  ⟨⟨"manifest.json"⟩, ⟨"runs"⟩, ⟨"out"⟩, .empty, true, 20⟩

private def pairLoaded : LoadedManifest :=
  ⟨Manifest.pair, ⟨"manifest.json"⟩, Manifest.pair.toJson.sha256⟩

private theorem loadManifest_besideOutput : (loadManifest (Store.onDisk 1)
    withoutRuns.manifestPath).Gives besideOutput pairLoaded besideOutput := by
  have keeps : (Store.Kind.onDisk 1).Keeps besideOutput ⟨"manifest.json"⟩ Manifest.pair.toJson :=
    rfl
  exact loadManifest_of_keeps Manifest.loadable_pair (by decide) keeps

/-- A document that is no output is lost when a gate leaves an output beside it. -/
theorem not_run_spares_others : ∃ f w',
    (run (Store.onDisk 1) (probe fun _ _ => false) (pure false) withoutRuns).outcome
      besideOutput = (.error f, w') ∧
    (loadRuns (Store.onDisk 1) withoutRuns.runsDir withoutRuns.runFilePattern).outcome w' =
      (.error f, w') ∧
    (∀ name ∈ outputNames,
      (withoutRuns.outDir.child name).same ⟨"out/manifest_validation.json.tmp"⟩ = false) ∧
    ((Store.onDisk 1).load ⟨"out/manifest_validation.json.tmp"⟩ :
      Attempt (StateM Workspace) Json).Gives besideOutput .null besideOutput ∧
    ∀ j, ¬ ((Store.onDisk 1).load ⟨"out/manifest_validation.json.tmp"⟩ :
      Attempt (StateM Workspace) Json).Gives w' j w' := by
  let report : Attempt (StateM Workspace) ManifestReport :=
    reportManifest (Store.onDisk 1) (probe fun _ _ => false) pairLoaded
      (withoutRuns.outDir.child manifestReportName)
  let w' := (report.outcome besideOutput).2
  let f : Failure := ⟨[.loadingRuns ⟨"runs"⟩], .refusal (.noDirectory ⟨"runs"⟩)⟩
  have reports : (report.outcome besideOutput).1.toOption.isSome = true := by decide +kernel
  obtain ⟨r, succeeds⟩ := Option.isSome_iff_exists.mp reports
  have reported : report.Gives besideOutput r w' := gives_of_toOption_eq_some succeeds
  have failed : (loadRuns (Store.onDisk 1) withoutRuns.runsDir withoutRuns.runFilePattern).outcome
      w' = (.error f, w') := by
    have cause : ((loadRuns (Store.onDisk 1) withoutRuns.runsDir
        withoutRuns.runFilePattern).outcome w').1 = .error f := by decide +kernel
    have left : ((loadRuns (Store.onDisk 1) withoutRuns.runsDir
        withoutRuns.runFilePattern).outcome w').2 = w' :=
      steady_loadRuns (.onDisk 1) withoutRuns.runsDir withoutRuns.runFilePattern w'
    exact Prod.ext cause left
  have goesOn (stage : Stage) (v : Workspace) :
      (checkpoint (pure false) stage : Attempt (StateM Workspace) Unit).Gives v () v := rfl
  have text : besideOutput.disk.readText ⟨"out/manifest_validation.json.tmp"⟩ = .ok "null" := by
    decide +kernel
  have parsed : Json.parse? "null" = some .null := by decide +kernel
  have gone : w'.disk.readText ⟨"out/manifest_validation.json.tmp"⟩ = .error .notFound := by
    decide +kernel
  refine ⟨f, w', ?_, failed, by decide +kernel, ?_, ?_⟩
  · rw [run, outcome_bind_eq_error_iff]
    refine .inr ⟨(), _, goesOn _ _, (outcome_bind_eq_error_iff _ _ _ _ _).mpr ?_⟩
    refine .inr ⟨_, _, loadManifest_besideOutput, (outcome_bind_eq_error_iff _ _ _ _ _).mpr ?_⟩
    refine .inr ⟨(), _, goesOn _ _, (outcome_bind_eq_error_iff _ _ _ _ _).mpr ?_⟩
    refine .inr ⟨_, _, reported, (outcome_bind_eq_error_iff _ _ _ _ _).mpr ?_⟩
    refine .inr ⟨(), _, goesOn _ _, (outcome_bind_eq_error_iff _ _ _ _ _).mpr (.inl failed)⟩
  · exact (Store.loadFile_gives_iff _ _ _ _).mpr ⟨⟨_, text, parsed⟩, rfl⟩
  · intro j given
    obtain ⟨⟨text, read, -⟩, -⟩ := (Store.loadFile_gives_iff _ _ _ _).mp given
    simp [gone] at read

end Gate
end ToolTrial
