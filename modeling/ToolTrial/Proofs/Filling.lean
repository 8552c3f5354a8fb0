import ToolTrial.Proofs.Drafting

/-!
Drafts that fill a worklist.  When drafts for all missing runs are written into the directory of the
runs, loading that directory again succeeds with nothing left to do exactly when each of the drafts
could be written under a free name of a run file and stands for a new run.
-/

set_option autoImplicit false
set_option relaxedAutoImplicit false

namespace ToolTrial

theorem Run.ofDocuments_perm {docs docs' : List (Path × Json)} {runs : List Run}
    (perm : docs.Perm docs') (read : ofDocuments [] docs' = .ok runs) :
    ∃ runs', ofDocuments [] docs = .ok runs' ∧ runs'.Perm runs := by
  obtain ⟨reads, distinct, -⟩ := (ofDocuments_eq_ok_iff [] docs' runs).mp read
  obtain ⟨runs', reads', perm'⟩ := List.perm_comp_forall₂ perm reads
  refine ⟨runs', (ofDocuments_eq_ok_iff [] docs runs').mpr ⟨reads', ?_, by simp⟩, perm'⟩
  exact (perm'.map _).nodup_iff.mpr distinct

theorem Manifest.runsPerCell_lt_of_decode {document : Json} {m : Manifest}
    (decoded : decode document = .ok m) : m.runsPerCell < UInt32.size := by
  simp only [decode, bind_eq_ok_iff, pure_eq_ok_iff] at decoded
  obtain ⟨r, -, -, -, -, -, -, -, -, -, -, -, count, given, rfl⟩ := decoded
  obtain ⟨j, read⟩ := Json.Record.exists_of_required_eq_ok given
  exact Json.Decoder.lt_of_natural read

theorem runsPerCell_lt_of_loadManifest {σ : Type} {store : Store (StateM σ)} {s t : σ} {path : Path}
    {l : LoadedManifest} (loads : (loadManifest store path).Gives s l t) :
    l.manifest.runsPerCell < UInt32.size := by
  obtain ⟨document, -, read⟩ := (loadManifest_gives_iff store s t path l).mp loads
  obtain ⟨-, decoded, -⟩ := (LoadedManifest.ofDocument_eq_ok_iff path document l).mp read
  exact Manifest.runsPerCell_lt_of_decode decoded

namespace Draft

open Attempt
open Pattern (documentNames)

variable {m : Manifest} {runs : List Run}

theorem recordedBy_record (p : PendingRun) : p.RecordedBy (record m p) :=
  ⟨Identifier.same_refl _, Identifier.same_refl _, rfl⟩

private theorem exists_of_forall₂_append {α β : Type} {rel : α → β → Prop} {as bs : List α}
    {cs : List β} (related : List.Forall₂ rel (as ++ bs) cs) :
    ∃ front back, cs = front ++ back ∧ List.Forall₂ rel as front ∧ List.Forall₂ rel bs back := by
  induction as generalizing cs with
  | nil => exact ⟨[], cs, rfl, .nil, related⟩
  | cons a as ih =>
    obtain ⟨c, rest, here, there, rfl⟩ := List.forall₂_cons_left_iff.mp related
    obtain ⟨front, back, rfl, first, second⟩ := ih there
    exact ⟨c :: front, back, rfl, .cons here first, second⟩

/-- Drafts are read after the runs of a directory when their tasks and conditions have names and no
identifier is there twice. -/
theorem ofDocuments_append_documents_iff {planned : List PendingRun}
    (pending : ∀ p ∈ planned, p ∈ (Worklist.ofRuns m runs).pendingRuns)
    (small : m.runsPerCell < UInt32.size) {docs : List (Path × Json)}
    (read : Run.ofDocuments [] docs = .ok runs) (dir : Path) (all : List Run) :
    Run.ofDocuments [] (docs ++ documents m dir planned) = .ok all ↔
      (∀ p ∈ planned, Text.allBlank p.taskId = false ∧ Text.allBlank p.conditionId = false) ∧
        all = runs ++ planned.map (record m) ∧
        (all.map fun r => Identifier.key r.runId).Nodup := by
  have each (p : PendingRun) (member : p ∈ planned) (r : Run) :
      Run.ofDocument (placeOf dir p) (record m p).toJson = .ok r ↔
        (Text.allBlank p.taskId = false ∧ Text.allBlank p.conditionId = false) ∧
          r = record m p :=
    ofDocument_record_iff (pending p member) (isSigned_of_pending (pending p member) small) _ r
  obtain ⟨reads, -, -⟩ := (Run.ofDocuments_eq_ok_iff [] docs runs).mp read
  rw [Run.ofDocuments_eq_ok_iff]
  constructor
  · rintro ⟨allRead, distinct, -⟩
    obtain ⟨front, drafts, rfl, frontRead, draftsRead⟩ := exists_of_forall₂_append allRead
    have old : front = runs := by
      have asList := mapM_eq_ok_iff.mpr frontRead
      rw [mapM_eq_ok_iff.mpr reads] at asList
      exact (Except.ok.inj asList).symm
    subst old
    rw [documents, List.forall₂_map_left_iff] at draftsRead
    have known := (List.forall₂_and_left (p := (· ∈ planned)) _ _).mpr
      ⟨fun _ member => member, draftsRead⟩
    have drafted := known.imp fun p r both => (each p both.1 r).mp both.2
    obtain ⟨named, equal⟩ := (List.forall₂_and_left _ _).mp drafted
    refine ⟨named, ?_, distinct⟩
    have mapped : planned.map (record m) = drafts := by
      rw [← List.forall₂_eq_eq_eq, List.forall₂_map_left_iff]
      exact equal.imp fun p r same => same.symm
    rw [mapped]
  · rintro ⟨named, rfl, distinct⟩
    refine ⟨List.rel_append reads ?_, distinct, by simp⟩
    rw [documents, List.forall₂_map_left_iff, List.forall₂_map_right_iff, List.forall₂_same]
    exact fun p member => (each p member _).mpr ⟨named p member, rfl⟩

/-- Drafts that leave nothing to do and a directory that can be loaded: each can be written under a
free name of a run file, has a task and a condition with names, and is that of a new run. -/
structure Fillable (m : Manifest) (runs : List Run) (isThere : Path → Bool) (dir : Path) :
    Prop where
  named : ∀ p ∈ (Worklist.ofRuns m runs).pendingRuns,
    Text.allBlank p.taskId = false ∧ Text.allBlank p.conditionId = false
  oneLine : ∀ p ∈ (Worklist.ofRuns m runs).pendingRuns, '\n' ∉ p.runId.toList
  free : ∀ p ∈ (Worklist.ofRuns m runs).pendingRuns,
    isThere (dir.child (p.runId ++ ".json")) = false
  new : ∀ p ∈ (Worklist.ofRuns m runs).pendingRuns, ∀ r ∈ runs,
    Identifier.same r.runId p.runId = false
  distinct : (Worklist.ofRuns m runs).pendingRuns.Pairwise fun p q =>
    Identifier.same p.runId q.runId = false

private theorem isFoundIn_documentName_iff (id : String) :
    documentNames.isFoundIn (documentName id) = true ↔ '\n' ∉ id.toList := by
  rw [Pattern.isFoundIn_documentNames_iff, documentName, String.toList_append]
  constructor
  · rintro ⟨stem, spelled, oneLine⟩
    rw [List.append_cancel_right spelled]
    exact oneLine
  · exact fun oneLine => ⟨id.toList, rfl, oneLine⟩

private theorem nodup_keys_iff (distinct : (runs.map fun r => Identifier.key r.runId).Nodup)
    (planned : List PendingRun) :
    ((runs ++ planned.map (record m)).map fun r => Identifier.key r.runId).Nodup ↔
      (∀ p ∈ planned, ∀ r ∈ runs, Identifier.same r.runId p.runId = false) ∧
        planned.Pairwise fun p q => Identifier.same p.runId q.runId = false := by
  have differ (a b : String) :
      Identifier.same a b = false ↔ Identifier.key a ≠ Identifier.key b := by
    rw [← Bool.not_eq_true, Identifier.same_iff_key_eq]
  have keys : (planned.map (record m)).map (fun r => Identifier.key r.runId) =
      planned.map fun p => Identifier.key p.runId := by
    rw [List.map_map]
    rfl
  rw [List.map_append, keys, List.nodup_append,
    Identifier.nodup_keys_iff_pairwise PendingRun.runId planned, List.forall_mem_map]
  simp only [List.forall_mem_map, differ]
  constructor
  · rintro ⟨-, others, new⟩
    exact ⟨fun p planned r member => new r member p planned, others⟩
  · rintro ⟨new, others⟩
    exact ⟨distinct, others, fun r member p planned => new p planned r member⟩

section Reloading

variable {kind : Store.Kind} {dir : Path} {docs : List (Path × Json)} {w w' : Workspace}
  {done : List PendingRun}

private theorem pendingRuns_drafted (loadable : m.Loadable) {drafted : List PendingRun}
    {reloaded : List Run} (planned : drafted.Sublist (Worklist.ofRuns m runs).pendingRuns)
    (order : reloaded.Perm (runs ++ drafted.map (record m))) :
    (Worklist.ofRuns m reloaded).pendingRuns =
      (Worklist.ofRuns m runs).pendingRuns.filter (· ∉ drafted) := by
  have recorded : List.Forall₂ PendingRun.RecordedBy drafted (drafted.map (record m)) := by
    rw [List.forall₂_map_right_iff, List.forall₂_same]
    exact fun p _ => recordedBy_record p
  have distinct := (Worklist.nodup_pendingRuns loadable runs).sublist planned
  exact Worklist.pendingRuns_eq_filter loadable distinct planned.subset recorded order

private theorem reload_iff_visible (loadable : m.Loadable) (small : m.runsPerCell < UInt32.size)
    (read : Run.ofDocuments [] docs = .ok runs)
    (wrote : Wrote kind m dir (Worklist.ofRuns m runs).pendingRuns docs w w' done) :
    (∃ reloaded w'', (loadRuns kind.store dir documentNames).Gives w' reloaded w'' ∧
        (Worklist.ofRuns m reloaded).pendingRuns = []) ↔
      visible done = (Worklist.ofRuns m runs).pendingRuns ∧
        ∃ all, Run.ofDocuments [] (docs ++ documents m dir (visible done)) = .ok all := by
  obtain ⟨docs', loads, perm⟩ := wrote.loads
  have shown : (visible done).Sublist (Worklist.ofRuns m runs).pendingRuns :=
    List.filter_sublist.trans wrote.sublist
  have readAll := ofDocuments_append_documents_iff (fun p member => shown.subset member) small read
    dir
  constructor
  · rintro ⟨reloaded, w'', reloads, nothing⟩
    obtain ⟨found, loads', foundRead⟩ := (loadRuns_gives_iff _ _ _ _ _ _).mp reloads
    obtain ⟨rfl, -⟩ := loads.unique loads'
    obtain ⟨all, allRead, order⟩ := Run.ofDocuments_perm perm.symm foundRead
    refine ⟨?_, all, allRead⟩
    obtain ⟨-, rfl, -⟩ := (readAll all).mp allRead
    -- No planned run is outside the drafts, and the drafts are a sublist of the plan: they are all.
    rw [pendingRuns_drafted loadable shown order.symm, List.filter_eq_nil_iff] at nothing
    have inside : (Worklist.ofRuns m runs).pendingRuns ⊆ visible done := by
      intro p pending
      simpa using nothing p pending
    have covered := List.subperm_of_subset (Worklist.nodup_pendingRuns loadable runs) inside
    exact shown.eq_of_length_le covered.length_le
  · rintro ⟨covered, all, allRead⟩
    obtain ⟨reloaded, reloads, order⟩ := Run.ofDocuments_perm perm allRead
    refine ⟨reloaded, w', (loadRuns_gives_iff _ _ _ _ _ _).mpr ⟨docs', loads, reloads⟩, ?_⟩
    obtain ⟨-, rfl, -⟩ := (readAll all).mp allRead
    rw [pendingRuns_drafted loadable shown order, List.filter_eq_nil_iff, covered]
    intro p pending
    simpa using pending

private theorem visible_eq_of_fillable
    (wrote : Wrote kind m dir (Worklist.ofRuns m runs).pendingRuns docs w w' done)
    (fillable : Fillable m runs (kind.holds w) dir) :
    visible done = (Worklist.ofRuns m runs).pendingRuns := by
  have names : ((Worklist.ofRuns m runs).pendingRuns.map fun p => documentName p.runId).Nodup := by
    rw [List.Nodup, List.pairwise_map]
    refine fillable.distinct.imp fun {p q} apart equal => ?_
    have ids : p.runId = q.runId := String.append_left_inj ".json" |>.mp equal
    rw [ids, Identifier.same_refl] at apart
    simp at apart
  rw [wrote.complete fillable.free names, visible, List.filter_eq_self]
  exact fun p pending => (isFoundIn_documentName_iff _).mpr (fillable.oneLine p pending)

private theorem reload_iff (loadable : m.Loadable) (small : m.runsPerCell < UInt32.size)
    (read : Run.ofDocuments [] docs = .ok runs)
    (wrote : Wrote kind m dir (Worklist.ofRuns m runs).pendingRuns docs w w' done) :
    (∃ reloaded w'', (loadRuns kind.store dir documentNames).Gives w' reloaded w'' ∧
        (Worklist.ofRuns m reloaded).pendingRuns = []) ↔
      Fillable m runs (kind.holds w) dir := by
  have identified := Run.identified_of_ofDocuments read
  have readAll := ofDocuments_append_documents_iff (fun _ pending => pending) small read dir
  rw [reload_iff_visible loadable small read wrote]
  constructor
  · rintro ⟨covered, all, allRead⟩
    rw [covered] at allRead
    obtain ⟨named, rfl, distinct⟩ := (readAll all).mp allRead
    obtain ⟨new, apart⟩ := (nodup_keys_iff identified.distinct _).mp distinct
    have seen (p : PendingRun) (pending : p ∈ (Worklist.ofRuns m runs).pendingRuns) :
        p ∈ done ∧ documentNames.isFoundIn (documentName p.runId) = true := by
      rw [← covered, visible, List.mem_filter] at pending
      exact pending
    refine ⟨named, fun p pending => ?_, fun p pending => ?_, new, apart⟩
    · exact (isFoundIn_documentName_iff _).mp (seen p pending).2
    · exact wrote.free p (seen p pending).1
  · intro fillable
    have covered := visible_eq_of_fillable wrote fillable
    have keys := (nodup_keys_iff (m := m) identified.distinct _).mpr
      ⟨fillable.new, fillable.distinct⟩
    refine ⟨covered, runs ++ (Worklist.ofRuns m runs).pendingRuns.map (record m), ?_⟩
    rw [covered]
    exact (readAll _).mpr ⟨fillable.named, rfl, keys⟩

end Reloading

/-- Drafts for all missing runs, written without force into the directory that the runs were loaded
from, are written unless the disk fails.  Loading that directory again then succeeds with nothing
left to do exactly when the drafts fill the worklist. -/
theorem writeMissing_fills_iff {kind : Store.Kind} {manifestPath dir : Path} {pattern : Pattern}
    (isDefault : Settings.defaults.pattern = .ok pattern) {w w₁ w₂ : Workspace} {l : LoadedManifest}
    (loadsManifest : (loadManifest kind.store manifestPath).Gives w l w₁)
    (loadsRuns : (loadRuns kind.store dir pattern).Gives w₁ runs w₂)
    (undisturbed : ∀ f w', (writeMissing kind.store kind.isThere l.manifest runs dir false).outcome
      w₂ = (.error f, w') → ∀ fault, f.cause ≠ .disk fault) :
    ∃ written w₃,
      (writeMissing kind.store kind.isThere l.manifest runs dir false).Gives w₂ written w₃ ∧
        ((∃ reloaded w₄, (loadRuns kind.store dir pattern).Gives w₃ reloaded w₄ ∧
            (Worklist.ofRuns l.manifest reloaded).pendingRuns = []) ↔
          Fillable l.manifest runs (kind.holds w₂) dir) := by
  rw [Pattern.defaults_pattern, Except.ok.injEq] at isDefault
  subst isDefault
  have loadable := loadable_of_loadManifest loadsManifest
  have small := runsPerCell_lt_of_loadManifest loadsManifest
  obtain ⟨docs, loads, read⟩ := (loadRuns_gives_iff _ _ _ _ _ _).mp loadsRuns
  obtain rfl := Store.Kind.loadAll_steady loads
  have draftable (p : PendingRun)
      (pending : p ∈ (Worklist.ofRuns l.manifest runs).pendingRuns) :
      Draftable l.manifest p := draftable_of_pending loadable small pending
  rcases writeAt_cases draftable loads with ⟨f, fault, w', failed, cause⟩ |
    ⟨written, w₃, done, gives, wrote⟩
  · refine absurd cause (undisturbed (f.within (.writingDrafts dir)) w' ?_ fault)
    rw [writeMissing_eq loadable, outcome_during, failed]
  · refine ⟨written, w₃, ?_, reload_iff loadable small read wrote⟩
    rw [writeMissing_eq loadable, gives_during_iff]
    exact gives

section Samples

open Store.Kind (inMemory)

private def pairWith (name : String) (run : Run) : Workspace where
  disk := Disk.empty ["work"]
  documents := [(⟨"pair/manifest.json"⟩, Manifest.pair.toJson),
    (Path.child ⟨"pair/runs"⟩ name, run.toJson)]
  clock := "now"
  answered := 0

private def missing : Attempt (StateM Workspace) (Nat × Nat) := do
  let l ← loadManifest inMemory.store ⟨"pair/manifest.json"⟩
  let runs ← loadRuns inMemory.store ⟨"pair/runs"⟩ documentNames
  let _ ← writeMissing inMemory.store inMemory.isThere l.manifest runs ⟨"pair/runs"⟩ false
  let reloaded ← loadRuns inMemory.store ⟨"pair/runs"⟩ documentNames
  pure ((Worklist.ofRuns l.manifest runs).pendingRuns.length,
    (Worklist.ofRuns l.manifest reloaded).pendingRuns.length)

private theorem exists_of_missing {w : Workspace} {before after : Nat}
    (counted : (missing.outcome w).1.toOption = some (before, after)) :
    ∃ l w₁ runs w₂ written w₃ reloaded w₄,
      (loadManifest inMemory.store ⟨"pair/manifest.json"⟩).Gives w l w₁ ∧
      (loadRuns inMemory.store ⟨"pair/runs"⟩ documentNames).Gives w₁ runs w₂ ∧
      (writeMissing inMemory.store inMemory.isThere l.manifest runs ⟨"pair/runs"⟩
        false).Gives w₂ written w₃ ∧
      (loadRuns inMemory.store ⟨"pair/runs"⟩ documentNames).Gives w₃ reloaded w₄ ∧
      (Worklist.ofRuns l.manifest runs).pendingRuns.length = before ∧
      (Worklist.ofRuns l.manifest reloaded).pendingRuns.length = after := by
  have given := gives_of_toOption_eq_some counted
  simp only [missing, gives_bind_iff, gives_pure_iff, Prod.mk.injEq] at given
  obtain ⟨l, w₁, loads, runs, w₂, found, written, w₃, wrote, reloaded, w₄, again, counts, -⟩ :=
    given
  exact ⟨l, w₁, runs, w₂, written, w₃, reloaded, w₄, loads, found, wrote, again, counts⟩

/-- Three of four runs are missing, and a draft for each leaves nothing to do. -/
theorem writeMissing_fills_pair : ∃ l w₁ runs w₂ written w₃,
    (loadManifest inMemory.store ⟨"pair/manifest.json"⟩).Gives
      (pairWith "1.json" (Run.ofPair "1" "plain" (some 2) [])) l w₁ ∧
    (loadRuns inMemory.store ⟨"pair/runs"⟩ documentNames).Gives w₁ runs w₂ ∧
    (Worklist.ofRuns l.manifest runs).pendingRuns.length = 3 ∧
    (writeMissing inMemory.store inMemory.isThere l.manifest runs ⟨"pair/runs"⟩
      false).Gives w₂ written w₃ ∧
    Fillable l.manifest runs (inMemory.holds w₂) ⟨"pair/runs"⟩ := by
  have counted : (missing.outcome (pairWith "1.json"
      (Run.ofPair "1" "plain" (some 2) []))).1.toOption = some (3, 0) := by
    decide +kernel
  obtain ⟨l, w₁, runs, w₂, written, w₃, reloaded, w₄, loads, found, wrote, again, three, none⟩ :=
    exists_of_missing counted
  obtain ⟨written', w₃', wrote', filled⟩ :=
    writeMissing_fills_iff Pattern.defaults_pattern loads found
      fun f _ failed => absurd failed (wrote.outcome_ne_error f)
  obtain ⟨rfl, rfl⟩ := wrote.unique wrote'
  exact ⟨l, w₁, runs, w₂, written, w₃, loads, found, three, wrote,
    filled.mp ⟨reloaded, w₄, again, List.length_eq_zero_iff.mp none⟩⟩

/-- A run without a replicate under the name of a draft is in the way of that draft. -/
theorem not_writeMissing_fills : ¬ ∀ (kind : Store.Kind) (manifestPath dir : Path)
    (w w₁ w₂ : Workspace) (l : LoadedManifest) (runs : List Run),
    (loadManifest kind.store manifestPath).Gives w l w₁ →
    (loadRuns kind.store dir documentNames).Gives w₁ runs w₂ →
    (∀ f w', (writeMissing kind.store kind.isThere l.manifest runs dir false).outcome w₂ =
      (.error f, w') → ∀ fault, f.cause ≠ .disk fault) →
    ∃ written w₃,
      (writeMissing kind.store kind.isThere l.manifest runs dir false).Gives w₂ written w₃ ∧
        ∃ reloaded w₄, (loadRuns kind.store dir documentNames).Gives w₃ reloaded w₄ ∧
          (Worklist.ofRuns l.manifest reloaded).pendingRuns = [] := by
  intro all
  have counted : (missing.outcome (pairWith "fix__plain__r01.json"
      (Run.ofPair "fix__plain__r01" "plain" none []))).1.toOption = some (3, 1) := by
    decide +kernel
  obtain ⟨l, w₁, runs, w₂, written, w₃, reloaded, w₄, loads, found, wrote, again, -, one⟩ :=
    exists_of_missing counted
  obtain ⟨written', w₃', wrote', reloaded', w₄', again', none⟩ :=
    all inMemory _ _ _ w₁ w₂ l runs loads found
      fun f _ failed => absurd failed (wrote.outcome_ne_error f)
  obtain ⟨rfl, rfl⟩ := wrote.unique wrote'
  obtain ⟨rfl, rfl⟩ := again.unique again'
  simp [none] at one

end Samples

end Draft
end ToolTrial
