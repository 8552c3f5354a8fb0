import ToolTrial.Proofs.Draft

/-!
Writing drafts into the directory of the runs.  Every draft is written whose name is free when its
turn comes, and what is loaded afterwards is what was loaded before with these drafts, as far as
they have the names of run files.
-/

set_option autoImplicit false
set_option relaxedAutoImplicit false

namespace ToolTrial.Draft

open Attempt
open Pattern (documentNames)

def placeOf (dir : Path) (p : PendingRun) : Path := dir.child (documentName p.runId)

/-- The drafts that are found among run files. -/
def visible (planned : List PendingRun) : List PendingRun :=
  planned.filter fun p => documentNames.isFoundIn (documentName p.runId)

def documents (m : Manifest) (dir : Path) (planned : List PendingRun) : List (Path × Json) :=
  planned.map fun p => (placeOf dir p, (record m p).toJson)

/-- A planned run that has a draft. -/
structure Draftable (m : Manifest) (p : PendingRun) : Prop where
  isName : Path.IsName (documentName p.runId)
  ofPending_eq : ofPending m p = .ok (record m p)
  readable : Json.Readable Json.GivenBack Json.depthLimit (record m p).toJson

/-- What is left in a directory after drafts for planned runs were written there, of which `done`
were new. -/
structure Wrote (kind : Store.Kind) (m : Manifest) (dir : Path) (planned : List PendingRun)
    (docs : List (Path × Json)) (w w' : Workspace) (done : List PendingRun) : Prop where
  sublist : done.Sublist planned
  free : ∀ p ∈ done, kind.holds w (placeOf dir p) = false
  complete : (∀ p ∈ planned, kind.holds w (placeOf dir p) = false) →
    (planned.map fun p => documentName p.runId).Nodup → done = planned
  loads : ∃ docs', (kind.store.loadAll dir documentNames).Gives w' docs' w' ∧
    docs'.Perm (docs ++ documents m dir (visible done))

theorem mapM_path_eq_ok {m : Manifest} {runs : List Run} (loadable : m.Loadable) (dir : Path) :
    ((Worklist.ofRuns m runs).pendingRuns.mapM fun p => path dir p.runId) =
      .ok ((Worklist.ofRuns m runs).pendingRuns.map (placeOf dir)) := by
  rw [mapM_eq_ok_iff, List.forall₂_map_right_iff, List.forall₂_same]
  exact fun p pending => path_eq_ok loadable pending dir

theorem draftable_of_pending {m : Manifest} {runs : List Run} (loadable : m.Loadable)
    (small : m.runsPerCell < UInt32.size) {p : PendingRun}
    (pending : p ∈ (Worklist.ofRuns m runs).pendingRuns) : Draftable m p :=
  ⟨isName_documentName loadable pending, ofPending_eq_ok pending,
    readable_record (isSigned_of_pending pending small)⟩

theorem writeMissing_of_safe {m : Manifest} {runs : List Run} {store : Store (StateM Workspace)}
    {isThere : Path → StateM Workspace Bool}
    (safe : ∀ p ∈ (Worklist.ofRuns m runs).pendingRuns, Identifier.fileSafe p.runId = true)
    (dir : Path) (force : Bool) :
    writeMissing store isThere m runs dir force = Attempt.during (.writingDrafts dir)
      (writeAt store isThere m force
        ((Worklist.ofRuns m runs).pendingRuns.map fun p => (p, placeOf dir p))) := by
  have paths : ((Worklist.ofRuns m runs).pendingRuns.mapM fun p => path dir p.runId) =
      .ok ((Worklist.ofRuns m runs).pendingRuns.map (placeOf dir)) := by
    rw [mapM_eq_ok_iff, List.forall₂_map_right_iff, List.forall₂_same]
    exact fun p pending => path_of_safe pending (safe p pending) dir
  have pairs : (Worklist.ofRuns m runs).pendingRuns.zip
      ((Worklist.ofRuns m runs).pendingRuns.map (placeOf dir)) =
      (Worklist.ofRuns m runs).pendingRuns.map fun p => (p, placeOf dir p) :=
    List.map_prod_left_eq_zip.symm
  rw [writeMissing, write, paths, ← pairs]
  rfl

theorem writeMissing_eq {m : Manifest} {runs : List Run} {store : Store (StateM Workspace)}
    {isThere : Path → StateM Workspace Bool} (loadable : m.Loadable) (dir : Path) (force : Bool) :
    writeMissing store isThere m runs dir force = Attempt.during (.writingDrafts dir)
      (writeAt store isThere m force
        ((Worklist.ofRuns m runs).pendingRuns.map fun p => (p, placeOf dir p))) :=
  writeMissing_of_safe (fun _ pending => fileSafe_runId loadable pending) dir force

private theorem documents_visible_cons (m : Manifest) (dir : Path) (p : PendingRun)
    (planned : List PendingRun) : documents m dir (visible (p :: planned)) =
      (if documentNames.isFoundIn (documentName p.runId) then
        [(placeOf dir p, (record m p).toJson)] else []) ++ documents m dir (visible planned) := by
  rw [visible, List.filter_cons]
  split <;> rfl

section Effects

variable {kind : Store.Kind} {m : Manifest} {dir : Path} {p : PendingRun}
  {planned done : List PendingRun} {docs docs' : List (Path × Json)} {w w₁ w₂ : Workspace}

private theorem Wrote.skip (taken : kind.holds w (placeOf dir p) = true)
    (wrote : Wrote kind m dir planned docs w w₁ done) :
    Wrote kind m dir (p :: planned) docs w w₁ done := by
  refine ⟨wrote.sublist.cons p, wrote.free, ?_, wrote.loads⟩
  intro allFree
  simp [allFree p List.mem_cons_self] at taken

private theorem Wrote.save (draftable : ∀ q ∈ planned, Draftable m q)
    (free : kind.holds w (placeOf dir p) = false)
    (saved : kind.Saved dir (documentName p.runId) (record m p).toJson docs w w₁)
    (perm : docs'.Perm (docs ++ if documentNames.isFoundIn (documentName p.runId) then
      [(placeOf dir p, (record m p).toJson)] else []))
    (wrote : Wrote kind m dir planned docs' w₁ w₂ done) :
    Wrote kind m dir (p :: planned) docs w w₂ (p :: done) := by
  have seen (q : PendingRun) (member : q ∈ planned) : kind.holds w₁ (placeOf dir q) =
      (decide (documentName q.runId = documentName p.runId) || kind.holds w (placeOf dir q)) :=
    saved.holds _ (draftable q member).isName ⟨q.runId, rfl⟩
  refine ⟨wrote.sublist.cons_cons p, ?_, ?_, ?_⟩
  · intro q member
    rcases List.mem_cons.mp member with rfl | later
    · exact free
    · have stillFree := wrote.free q later
      rw [seen q (wrote.sublist.subset later), Bool.or_eq_false_iff] at stillFree
      exact stillFree.2
  · intro allFree distinct
    rw [List.map_cons, List.nodup_cons] at distinct
    rw [List.forall_mem_cons] at allFree
    congr 1
    refine wrote.complete (fun q member => ?_) distinct.2
    have apart : documentName q.runId ≠ documentName p.runId := by
      intro equal
      exact distinct.1 (List.mem_map.mpr ⟨q, member, equal⟩)
    rw [seen q member, allFree.2 q member]
    simpa using apart
  · obtain ⟨docs'', loads, perm'⟩ := wrote.loads
    refine ⟨docs'', loads, perm'.trans ?_⟩
    rw [documents_visible_cons, ← List.append_assoc]
    exact perm.append_right _

end Effects

section Steps

variable {kind : Store.Kind} {m : Manifest} {dir : Path} {p : PendingRun}
  {rest : List (PendingRun × Path)} {w : Workspace}

theorem outcome_writeAt_of_holds (taken : kind.holds w (placeOf dir p) = true) :
    (writeAt kind.store kind.isThere m false ((p, placeOf dir p) :: rest)).outcome w =
      match (writeAt kind.store kind.isThere m false rest).outcome w with
      | (.ok others, t) => (.ok { others with skipped := placeOf dir p :: others.skipped }, t)
      | (.error f, t) => (.error f, t) := by
  have look : kind.isThere (placeOf dir p) w = (true, w) := by rw [Store.Kind.isThere, taken]
  rw [writeAt]
  simp only [outcome_bind, outcome_liftM, look]
  rw [if_pos (by rfl), outcome_bind]
  rcases (writeAt kind.store kind.isThere m false rest).outcome w with ⟨_ | _, _⟩ <;> rfl

theorem outcome_writeAt_of_due {force : Bool}
    (due : (!force && kind.holds w (placeOf dir p)) = false)
    (drafted : ofPending m p = .ok (record m p)) :
    (writeAt kind.store kind.isThere m force ((p, placeOf dir p) :: rest)).outcome w =
      match (kind.store.save (placeOf dir p) (record m p).toJson).outcome w with
      | (.ok (), t) =>
        match (writeAt kind.store kind.isThere m force rest).outcome t with
        | (.ok others, u) => (.ok { others with written := placeOf dir p :: others.written }, u)
        | (.error f, u) => (.error f, u)
      | (.error f, t) => (.error f, t) := by
  have look : kind.isThere (placeOf dir p) w = (kind.holds w (placeOf dir p), w) := rfl
  rw [writeAt]
  simp only [outcome_bind, outcome_liftM, look]
  rw [if_neg (by simp [due]), outcome_bind, outcome_ofExcept, drafted]
  dsimp only
  rw [outcome_bind]
  rcases (kind.store.save (placeOf dir p) (record m p).toJson).outcome w with ⟨_ | _, t⟩
  · rfl
  · dsimp only
    rw [outcome_bind]
    rcases (writeAt kind.store kind.isThere m force rest).outcome t with ⟨_ | _, _⟩ <;> rfl

end Steps

/-- Drafts are written one after the other until the disk fails, or else all that have a free name
when their turn comes. -/
theorem writeAt_cases {kind : Store.Kind} {m : Manifest} {dir : Path} {planned : List PendingRun}
    (draftable : ∀ p ∈ planned, Draftable m p) {docs : List (Path × Json)} {w : Workspace}
    (loads : (kind.store.loadAll dir documentNames).Gives w docs w) :
    (∃ f fault w', (writeAt kind.store kind.isThere m false
        (planned.map fun p => (p, placeOf dir p))).outcome w = (.error f, w') ∧
      f.cause = .disk fault) ∨
    ∃ written w' done, (writeAt kind.store kind.isThere m false
        (planned.map fun p => (p, placeOf dir p))).Gives w written w' ∧
      Wrote kind m dir planned docs w w' done := by
  -- Both the workspace and what is loaded from it change with every draft that is saved.
  induction planned generalizing docs w with
  | nil =>
    refine Or.inr ⟨⟨[], []⟩, w, [], rfl, .slnil, by simp, by simp, docs, loads, ?_⟩
    simp [documents, visible]
  | cons p planned ih =>
    rw [List.forall_mem_cons] at draftable
    obtain ⟨here, others⟩ := draftable
    rw [List.map_cons]
    cases taken : kind.holds w (placeOf dir p) with
    | true =>
      rcases ih others loads with ⟨f, fault, w', failed, cause⟩ | ⟨written, w', done, gives, wrote⟩
      · refine Or.inl ⟨f, fault, w', ?_, cause⟩
        rw [outcome_writeAt_of_holds taken, failed]
      · refine Or.inr ⟨{ written with skipped := placeOf dir p :: written.skipped }, w', done, ?_,
          wrote.skip taken⟩
        rw [Gives, outcome_writeAt_of_holds taken, gives]
    | false =>
      have due : (!false && kind.holds w (placeOf dir p)) = false := taken
      rcases kind.save_cases here.isName here.readable loads taken with
        ⟨f, fault, w', failed, cause⟩ | ⟨w', saves, saved⟩
      · refine Or.inl ⟨f, fault, w', ?_, cause⟩
        rw [outcome_writeAt_of_due due here.ofPending_eq]
        simp only [placeOf, failed]
      · obtain ⟨docs', loads', perm⟩ := saved.loads
        rw [Gives] at saves
        rcases ih others loads' with ⟨f, fault, t, failed, cause⟩ | ⟨written, t, done, gives, wrote⟩
        · refine Or.inl ⟨f, fault, t, ?_, cause⟩
          rw [outcome_writeAt_of_due due here.ofPending_eq]
          simp only [placeOf, saves] at failed ⊢
          rw [failed]
        · refine Or.inr ⟨{ written with written := placeOf dir p :: written.written }, t, p :: done,
            ?_, wrote.save others taken saved perm⟩
          rw [Gives] at gives ⊢
          rw [outcome_writeAt_of_due due here.ofPending_eq]
          simp only [placeOf, saves] at gives ⊢
          rw [gives]

end ToolTrial.Draft
