import ToolTrial.Proofs.Filling
import ToolTrial.Proofs.Retention

/-!
Drafts that are written by force.  They go where the missing runs are expected, whatever is there:
of the documents that runs were loaded from, those at the places of these drafts are lost, although
none of them is a draft of a missing run, and all others stay.
-/

set_option autoImplicit false
set_option relaxedAutoImplicit false

namespace ToolTrial.Draft

open Attempt
open Pattern (documentNames)

/-- What forced drafts for planned runs do to the documents that can be read. -/
structure Forced (kind : Store.Kind) (m : Manifest) (dir : Path) (planned : List PendingRun)
    (w w' : Workspace) (result : Except Failure Written) : Prop where
  spared : ∀ path, kind.Readable w path →
    (∀ p ∈ planned, ¬ kind.SamePlace w path (placeOf dir p)) → kind.Unchanged w w' path
  ended : (kind ≠ .inMemory ∧ ∃ f fault, result = .error f ∧ f.cause = .disk fault) ∨
    result = .ok ⟨planned.map (placeOf dir), []⟩ ∧ ∀ path, kind.Readable w path →
      (∃ p ∈ planned, kind.SamePlace w path (placeOf dir p)) →
      ∃ p ∈ planned, kind.SamePlace w path (placeOf dir p) ∧
        (kind.store.load path).Gives w' (record m p).toJson w'

section Steps

variable {kind : Store.Kind} {m : Manifest} {dir : Path} {p : PendingRun}
  {planned : List PendingRun} {w w₁ w' : Workspace} {result : Except Failure Written}

private theorem Forced.save (draftable : ∀ q ∈ planned, Draftable m q)
    (saved : kind.Overwritten dir (documentName p.runId) (record m p).toJson w w₁)
    (forced : Forced kind m dir planned w₁ w' result) :
    Forced kind m dir (p :: planned) w w'
      (result.map fun others => { others with written := placeOf dir p :: others.written }) := by
  have later (path : Path) (readable : kind.Readable w path) (q : PendingRun)
      (member : q ∈ planned) :
      kind.SamePlace w₁ path (placeOf dir q) ↔ kind.SamePlace w path (placeOf dir q) :=
    saved.samePlace_iff path readable _ (draftable q member).isName
  constructor
  · intro path readable apart
    rw [List.forall_mem_cons] at apart
    refine (saved.unchanged path readable apart.1).trans
      (forced.spared path (saved.readable path readable) fun q member => ?_)
    rw [later path readable q member]
    exact apart.2 q member
  · rcases forced.ended with ⟨onDisk, f, fault, rfl, cause⟩ | ⟨rfl, replaced⟩
    · exact Or.inl ⟨onDisk, f, fault, rfl, cause⟩
    · refine Or.inr ⟨rfl, fun path readable taken => ?_⟩
      by_cases again : ∃ q ∈ planned, kind.SamePlace w₁ path (placeOf dir q)
      · obtain ⟨q, member, same, loads⟩ :=
          replaced path (saved.readable path readable) again
        exact ⟨q, List.mem_cons_of_mem _ member, (later path readable q member).mp same, loads⟩
      · have last : kind.SamePlace w path (placeOf dir p) := by
          obtain ⟨q, member, same⟩ := taken
          rcases List.mem_cons.mp member with rfl | member
          · exact same
          · exact absurd ⟨q, member, (later path readable q member).mpr same⟩ again
        have stays := forced.spared path (saved.readable path readable)
          fun q member same => again ⟨q, member, same⟩
        exact ⟨p, List.mem_cons_self, last, stays.load (saved.replaced path readable last)⟩

end Steps

theorem writeAt_forced {kind : Store.Kind} {m : Manifest} {dir : Path} {planned : List PendingRun}
    (draftable : ∀ p ∈ planned, Draftable m p) {w : Workspace} (isOpen : kind.IsOpen w dir) :
    ∃ result w', (writeAt kind.store kind.isThere m true
        (planned.map fun p => (p, placeOf dir p))).outcome w = (result, w') ∧
      Forced kind m dir planned w w' result := by
  induction planned generalizing w with
  | nil =>
    refine ⟨_, w, rfl, fun path _ _ => .refl kind w path, Or.inr ⟨rfl, ?_⟩⟩
    rintro path - ⟨p, member, -⟩
    simp at member
  | cons p planned ih =>
    rw [List.forall_mem_cons] at draftable
    obtain ⟨here, others⟩ := draftable
    rw [List.map_cons, outcome_writeAt_of_due (by simp) here.ofPending_eq]
    rcases kind.overwrite_cases here.isName here.readable isOpen with
      ⟨onDisk, f, fault, w', failed, cause, unchanged⟩ | ⟨w₁, saves, saved⟩
    · refine ⟨.error f, w', ?_, fun path readable _ => unchanged path readable,
        Or.inl ⟨onDisk, f, fault, rfl, cause⟩⟩
      simp only [placeOf, failed]
    · obtain ⟨result, w', ended, forced⟩ := ih others saved.isOpen
      rw [Gives] at saves
      refine ⟨_, w', ?_, forced.save others saved⟩
      simp only [placeOf, saves] at ended ⊢
      rw [ended]
      cases result <;> rfl

section Recorded

variable {m : Manifest} {runs : List Run} {p : PendingRun}

/-- No run in the cell of a planned run has its replicate number. -/
theorem replicate_ne_of_pending (pending : p ∈ (Worklist.ofRuns m runs).pendingRuns) {r : Run}
    (recorded : r ∈ runs) (inCell : r.isInCell p.taskId p.conditionId = true) :
    r.replicate ≠ some p.replicate := by
  intro number
  obtain ⟨cell, isCell, planned⟩ := List.mem_flatMap.mp pending
  have accounts := Worklist.accounts_cellsOf m runs isCell
  have free := cell.plans_pending.leastFree
  have carried := cell.plans_pending.carries p planned
  have chosen : p.replicate ∈ cell.pending.map (·.replicate) := List.mem_map_of_mem planned
  refine free.unused _ chosen ((accounts.mem_used_iff _).mpr ⟨free.positive _ chosen, r, recorded,
    ?_, number⟩)
  rw [carried] at inCell
  exact inCell

theorem document_ne_of_pending (small : m.runsPerCell < UInt32.size) {docs : List (Path × Json)}
    (read : Run.ofDocuments [] docs = .ok runs)
    (pending : p ∈ (Worklist.ofRuns m runs).pendingRuns) {e : Path × Json} (member : e ∈ docs) :
    e.2 ≠ (record m p).toJson := by
  intro equal
  obtain ⟨reads, -, -⟩ := (Run.ofDocuments_eq_ok_iff [] docs runs).mp read
  obtain ⟨r, recorded, given⟩ := exists_mem_of_forall₂ reads.flip member
  rw [equal] at given
  have signed := isSigned_of_pending pending small
  obtain ⟨-, rfl⟩ := (ofDocument_record_iff pending signed e.1 r).mp given
  have inCell : (record m p).isInCell p.taskId p.conditionId = true := by
    rw [Run.isInCell, Bool.and_eq_true]
    exact ⟨Identifier.same_refl _, Identifier.same_refl _⟩
  exact replicate_ne_of_pending pending recorded inCell rfl

end Recorded

/-- When drafts for all missing runs are forced into the directory that the runs were loaded from,
every document stays that is not at the place of such a draft, whatever the disk does.  Unless the
disk fails, a draft is then in place of every other one, which was no such draft before. -/
theorem writeMissing_forced {kind : Store.Kind} {manifestPath dir : Path} {pattern : Pattern}
    (isDefault : Settings.defaults.pattern = .ok pattern) {w w₁ w₂ : Workspace} {l : LoadedManifest}
    {runs : List Run} {docs : List (Path × Json)}
    (loadsManifest : (loadManifest kind.store manifestPath).Gives w l w₁)
    (loadsRuns : (loadRuns kind.store dir pattern).Gives w₁ runs w₂)
    (loads : (kind.store.loadAll dir pattern).Gives w₁ docs w₂) :
    ∃ result w₃,
      (writeMissing kind.store kind.isThere l.manifest runs dir true).outcome w₂ = (result, w₃) ∧
      (∀ e ∈ docs,
        (∀ p ∈ (Worklist.ofRuns l.manifest runs).pendingRuns,
          ¬ kind.SamePlace w₂ e.1 (placeOf dir p)) → kind.Unchanged w₂ w₃ e.1) ∧
      ((kind ≠ .inMemory ∧ ∃ f fault, result = .error f ∧ f.cause = .disk fault) ∨
        result = .ok ⟨(Worklist.ofRuns l.manifest runs).pendingRuns.map (placeOf dir), []⟩ ∧
        ∀ e ∈ docs,
          (∃ p ∈ (Worklist.ofRuns l.manifest runs).pendingRuns,
            kind.SamePlace w₂ e.1 (placeOf dir p)) →
          ∃ p ∈ (Worklist.ofRuns l.manifest runs).pendingRuns,
            kind.SamePlace w₂ e.1 (placeOf dir p) ∧ e.2 ≠ (record l.manifest p).toJson ∧
              (kind.store.load e.1).Gives w₃ (record l.manifest p).toJson w₃) := by
  rw [Pattern.defaults_pattern, Except.ok.injEq] at isDefault
  subst isDefault
  have loadable := loadable_of_loadManifest loadsManifest
  have small := runsPerCell_lt_of_loadManifest loadsManifest
  obtain ⟨docs', loads', read⟩ := (loadRuns_gives_iff _ _ _ _ _ _).mp loadsRuns
  obtain ⟨rfl, -⟩ := loads.unique loads'
  obtain rfl := Store.Kind.loadAll_steady loads
  obtain ⟨isOpen, readable⟩ := Store.Kind.readable_of_loadAll loads
  obtain ⟨result, w₃, ended, forced⟩ :=
    writeAt_forced (fun p pending => draftable_of_pending loadable small pending) isOpen
  refine ⟨result.mapError (·.within (.writingDrafts dir)), w₃, ?_, ?_, ?_⟩
  · rw [writeMissing_eq loadable, outcome_during, ended]
    cases result <;> rfl
  · exact fun e member apart => forced.spared e.1 (readable e member) apart
  · rcases forced.ended with ⟨onDisk, f, fault, rfl, cause⟩ | ⟨rfl, replaced⟩
    · exact Or.inl ⟨onDisk, _, fault, rfl, cause⟩
    · refine Or.inr ⟨rfl, fun e member taken => ?_⟩
      obtain ⟨p, pending, same, loads⟩ := replaced e.1 (readable e member) taken
      exact ⟨p, pending, same, document_ne_of_pending small read pending member, loads⟩

section Samples

open Store.Kind (inMemory)

private def runsDir : Path := ⟨"pair/runs"⟩

private def aside : Path := runsDir.child "1.json"

private def inTheWay : Path := runsDir.child "fix__plain__r01.json"

private def halfDone : Workspace where
  disk := Disk.empty ["work"]
  documents := [(⟨"pair/manifest.json"⟩, Manifest.pair.toJson),
    (aside, (Run.ofPair "1" "tools" (some 2) []).toJson),
    (inTheWay, (Run.ofPair "fix__plain__r01" "plain" none []).toJson)]
  clock := "now"
  answered := 0

/-- Where the runs of the small experiment are found, and whether the document in the way stays when
drafts are forced. -/
private def forced : Attempt (StateM Workspace) (List Path × Bool) := do
  let l ← loadManifest inMemory.store ⟨"pair/manifest.json"⟩
  let runs ← loadRuns inMemory.store runsDir documentNames
  let docs ← inMemory.store.loadAll runsDir documentNames
  let before ← inMemory.store.load inTheWay
  let _ ← writeMissing inMemory.store inMemory.isThere l.manifest runs runsDir true
  let after ← inMemory.store.load inTheWay
  pure (docs.map (·.1), decide (after = before))

private theorem exists_of_forced : ∃ l w runs docs written w',
    (loadManifest inMemory.store ⟨"pair/manifest.json"⟩).Gives halfDone l w ∧
    (loadRuns inMemory.store runsDir documentNames).Gives w runs w ∧
    (inMemory.store.loadAll runsDir documentNames).Gives w docs w ∧
    docs.map (·.1) = [aside, inTheWay] ∧
    (writeMissing inMemory.store inMemory.isThere l.manifest runs runsDir true).Gives
      w written w' ∧
    ¬ inMemory.Unchanged w w' inTheWay := by
  have counted : (forced.outcome halfDone).1.toOption = some ([aside, inTheWay], false) := by
    decide +kernel
  have given := gives_of_toOption_eq_some counted
  simp only [forced, gives_bind_iff, gives_pure_iff, Prod.mk.injEq] at given
  obtain ⟨l, w, loads, runs, w₁, found, docs, w₂, listed, before, w₃, load, written, w', wrote,
    after, w₄, again, ⟨paths, differs⟩, -⟩ := given
  -- Only the writing of the drafts changes the workspace.
  have steady {path : Path} {u v : Workspace} {document : Json}
      (load : (inMemory.store.load path).Gives u document v) : u = v :=
    ((Store.inMemory_load_gives_iff path u v document).mp load).2
  obtain ⟨docs', listed', -⟩ := (loadRuns_gives_iff _ _ _ _ _ _).mp found
  obtain rfl := Store.Kind.loadAll_steady listed'
  obtain rfl := Store.Kind.loadAll_steady listed
  obtain rfl := steady load
  obtain rfl := steady again
  refine ⟨l, _, runs, docs, written, _, loads, found, listed, paths, wrote, fun unchanged => ?_⟩
  simp [((unchanged.load load).unique again).1] at differs

/-- Of two documents, the one that is in the way of a draft is lost to it and the other stays. -/
theorem writeMissing_forced_pair : ∃ l w runs docs written w',
    (loadManifest inMemory.store ⟨"pair/manifest.json"⟩).Gives halfDone l w ∧
    (loadRuns inMemory.store runsDir documentNames).Gives w runs w ∧
    (inMemory.store.loadAll runsDir documentNames).Gives w docs w ∧
    docs.map (·.1) = [aside, inTheWay] ∧
    (writeMissing inMemory.store inMemory.isThere l.manifest runs runsDir true).Gives
      w written w' ∧
    inMemory.Unchanged w w' aside ∧
    ∃ p ∈ (Worklist.ofRuns l.manifest runs).pendingRuns,
      inMemory.SamePlace w inTheWay (placeOf runsDir p) ∧
      (inMemory.store.load inTheWay).Gives w' (record l.manifest p).toJson w' := by
  obtain ⟨l, w, runs, docs, written, w', loads, found, listed, paths, wrote, lost⟩ :=
    exists_of_forced
  obtain ⟨result, w₃, ended, spared, replaced⟩ :=
    writeMissing_forced Pattern.defaults_pattern loads found listed
  obtain ⟨rfl, rfl⟩ := Prod.mk.inj (ended.symm.trans wrote)
  obtain ⟨e, member, isInTheWay⟩ : ∃ e ∈ docs, e.1 = inTheWay :=
    List.mem_map.mp (by simp [paths])
  rw [← isInTheWay] at lost
  have taken : ∃ p ∈ (Worklist.ofRuns l.manifest runs).pendingRuns,
      inMemory.SamePlace w e.1 (placeOf runsDir p) := by
    by_contra none
    exact lost (spared e member fun p pending same => none ⟨p, pending, same⟩)
  have free : ∀ p ∈ (Worklist.ofRuns l.manifest runs).pendingRuns,
      ¬ inMemory.SamePlace w aside (placeOf runsDir p) := by
    intro p pending same
    have name := (Path.same_child_iff runsDir ⟨by decide, by decide, by decide⟩
      (isName_documentName (loadable_of_loadManifest loads) pending)).mp same
    have line : '_' ∈ (documentName p.runId).toList := by
      simp [documentName, toList_runId pending]
    rw [← name] at line
    exact absurd line (by decide)
  obtain ⟨other, isMember, isAside⟩ : ∃ e ∈ docs, e.1 = aside :=
    List.mem_map.mp (by simp [paths])
  have stays := spared other isMember (isAside ▸ free)
  rcases replaced with ⟨onDisk, -⟩ | ⟨-, replaced⟩
  · exact absurd rfl onDisk
  · obtain ⟨p, pending, same, -, load⟩ := replaced e member taken
    rw [isInTheWay] at same load
    exact ⟨l, w, runs, docs, written, _, loads, found, listed, paths, wrote, isAside ▸ stays, p,
      pending, same, load⟩

/-- Forced drafts do not leave every document that runs were loaded from. -/
theorem not_writeMissing_forced_spares : ¬ ∀ (kind : Store.Kind) (manifestPath dir : Path)
    (w w₁ w₂ w₃ : Workspace) (l : LoadedManifest) (runs : List Run) (docs : List (Path × Json))
    (written : Written),
    (loadManifest kind.store manifestPath).Gives w l w₁ →
    (loadRuns kind.store dir documentNames).Gives w₁ runs w₂ →
    (kind.store.loadAll dir documentNames).Gives w₁ docs w₂ →
    (writeMissing kind.store kind.isThere l.manifest runs dir true).Gives w₂ written w₃ →
    ∀ e ∈ docs, kind.Unchanged w₂ w₃ e.1 := by
  intro all
  obtain ⟨l, w, runs, docs, written, w', loads, found, listed, paths, wrote, lost⟩ :=
    exists_of_forced
  obtain ⟨e, member, isInTheWay⟩ : ∃ e ∈ docs, e.1 = inTheWay :=
    List.mem_map.mp (by simp [paths])
  rw [← isInTheWay] at lost
  exact lost (all inMemory _ _ _ w w w' l runs docs written loads found listed wrote e member)

end Samples

end ToolTrial.Draft
