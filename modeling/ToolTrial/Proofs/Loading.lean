import ToolTrial.Loading
import ToolTrial.Proofs.Attempt
import ToolTrial.Proofs.Manifest

/-!
What loading guarantees.  A loaded manifest is loadable; loaded runs stand for the documents that
were read, in their order, and each of them has an identifier that no other one has.
-/

set_option autoImplicit false
set_option relaxedAutoImplicit false

namespace ToolTrial

theorem mapWithin_eq_ok_iff {α : Type} {activity : Activity} {result : Except Failure α}
    {a : α} : Failure.mapWithin activity result = .ok a ↔ result = .ok a := by
  cases result <;> simp [Failure.mapWithin]

theorem mapWithin_eq_error_iff {α : Type} {activity : Activity} {result : Except Failure α}
    {f : Failure} : Failure.mapWithin activity result = .error f ↔
      ∃ g, result = .error g ∧ g.within activity = f := by
  cases result <;> simp [Failure.mapWithin]

theorem ofDecoded_eq_ok_iff {α : Type} {activity : Activity}
    {result : Except Json.DecodeError α} {a : α} :
    Failure.ofDecoded activity result = .ok a ↔ result = .ok a := by
  cases result <;> simp [Failure.ofDecoded]

theorem ofDecoded_eq_error_iff {α : Type} {activity : Activity}
    {result : Except Json.DecodeError α} {f : Failure} :
    Failure.ofDecoded activity result = .error f ↔
      ∃ e, result = .error e ∧ ⟨[activity], .undecodable e⟩ = f := by
  cases result <;> simp [Failure.ofDecoded]

theorem check_eq_ok_iff (schema : Schema) (label : String) (document : Json) :
    schema.check label document = .ok () ↔ schema.violations document = [] := by
  unfold Schema.check
  cases schema.violations document <;> simp

theorem check_eq_error_iff (schema : Schema) (label : String) (document : Json) (f : Failure) :
    schema.check label document = .error f ↔ schema.violations document ≠ [] ∧
      Failure.refuse (.schema label (schema.violations document)) = f := by
  unfold Schema.check
  cases schema.violations document <;> simp

theorem LoadedManifest.ofDocument_eq_ok_iff (path : Path) (document : Json) (l : LoadedManifest) :
    LoadedManifest.ofDocument path document = .ok l ↔
      Schema.manifest.violations document = [] ∧ Manifest.decode document = .ok l.manifest ∧
        l.manifest.Loadable ∧ l.path = path ∧ l.sha256 = document.sha256 := by
  simp only [LoadedManifest.ofDocument, bind_eq_ok_iff, mapWithin_eq_ok_iff, check_eq_ok_iff,
    ofDecoded_eq_ok_iff, pure_eq_ok_iff, Manifest.checkInvariants_eq_ok_iff, Unique.exists_iff,
    PUnit.default_eq_unit]
  constructor
  · rintro ⟨valid, manifest, decoded, loadable, rfl⟩
    exact ⟨valid, decoded, loadable, rfl, rfl⟩
  · obtain ⟨manifest, path, digest⟩ := l
    rintro ⟨valid, decoded, loadable, rfl, rfl⟩
    exact ⟨valid, manifest, decoded, loadable, rfl⟩

theorem lookup_key_eq_none_iff (key : String) (seen : List (String × Path)) :
    seen.lookup key = none ↔ key ∉ seen.map Prod.fst := by
  simp only [List.lookup_eq_none_iff, bne_iff_ne, List.mem_map, not_exists, not_and]
  exact ⟨fun fresh entry member equal => fresh entry member equal.symm,
    fun fresh entry member equal => fresh entry member equal.symm⟩

namespace Run

structure Usable (r : Run) : Prop where
  hasId : Text.allBlank r.runId = false
  hasTask : Text.allBlank r.taskId = false
  hasCondition : Text.allBlank r.conditionId = false
  hasDuration : isDuration r.durationSeconds = true

/-- Runs with identifiers, all of them different. -/
structure Identified (runs : List Run) : Prop where
  named : ∀ r ∈ runs, Text.allBlank r.runId = false
  distinct : (runs.map fun r => Identifier.key r.runId).Nodup

theorem checkShape_eq_ok_iff (r : Run) : r.checkShape = .ok () ↔ r.Usable := by
  have usable : r.Usable ↔
      (∀ member ∈ r.named, Text.allBlank member.2 = false) ∧
        isDuration r.durationSeconds = true := by
    constructor
    · rintro ⟨id, task, condition, duration⟩
      simp [named, id, task, condition, duration]
    · rintro ⟨members, duration⟩
      simp only [named, List.forall_mem_cons] at members
      exact ⟨members.1, members.2.1, members.2.2.1, duration⟩
  rw [usable, checkShape]
  cases found : r.named.find? fun member => Text.allBlank member.2 with
  | some member =>
    have blank : Text.allBlank member.2 = true := by simpa using List.find?_some found
    have inside := List.mem_of_find?_eq_some found
    simp only [reduceCtorEq, false_iff, not_and]
    intro members
    simp [members member inside] at blank
  | none =>
    have members : ∀ member ∈ r.named, Text.allBlank member.2 = false := by
      simpa using List.find?_eq_none.mp found
    rw [and_iff_right members]
    simp

theorem ofDocument_eq_ok_iff (path : Path) (document : Json) (r : Run) :
    ofDocument path document = .ok r ↔
      Schema.run.violations document = [] ∧ decode document = .ok r ∧ r.Usable := by
  simp only [ofDocument, bind_eq_ok_iff, mapWithin_eq_ok_iff, check_eq_ok_iff,
    ofDecoded_eq_ok_iff, pure_eq_ok_iff, checkShape_eq_ok_iff, Unique.exists_iff,
    PUnit.default_eq_unit]
  constructor
  · rintro ⟨valid, run, decoded, usable, rfl⟩
    exact ⟨valid, decoded, usable⟩
  · rintro ⟨valid, decoded, usable⟩
    exact ⟨valid, r, decoded, usable, rfl⟩

/-- Documents give runs exactly when each gives its own and no identifier is seen twice.  Where the
earlier documents were found plays no part. -/
theorem ofDocuments_eq_ok_iff (seen : List (String × Path)) (documents : List (Path × Json))
    (runs : List Run) :
    ofDocuments seen documents = .ok runs ↔
      List.Forall₂ (fun document r => ofDocument document.1 document.2 = .ok r) documents runs ∧
        (runs.map fun r => Identifier.key r.runId).Nodup ∧
        ∀ r ∈ runs, Identifier.key r.runId ∉ seen.map Prod.fst := by
  induction documents generalizing seen runs with
  | nil => cases runs <;> simp [ofDocuments]
  | cons document rest ih =>
    obtain ⟨path, json⟩ := document
    simp only [ofDocuments, bind_eq_ok_iff]
    constructor
    · rintro ⟨r, read, continued⟩
      cases known : seen.lookup (Identifier.key r.runId) with
      | some earlier => simp [known] at continued
      | none =>
        simp only [known, bind_eq_ok_iff, pure_eq_ok_iff, ih] at continued
        obtain ⟨others, ⟨reads, distinct, fresh⟩, rfl⟩ := continued
        simp only [List.map_cons, List.mem_cons, not_or] at fresh
        have unseen := (lookup_key_eq_none_iff _ _).mp known
        refine ⟨.cons read reads, ?_, ?_⟩
        · rw [List.map_cons, List.nodup_cons, List.mem_map]
          refine ⟨?_, distinct⟩
          rintro ⟨other, member, equal⟩
          exact (fresh other member).1 equal
        · rw [List.forall_mem_cons]
          exact ⟨unseen, fun other member => (fresh other member).2⟩
    · rintro ⟨reads, distinct, fresh⟩
      obtain ⟨r, others, read, others_read, rfl⟩ := List.forall₂_cons_left_iff.mp reads
      rw [List.map_cons, List.nodup_cons, List.mem_map] at distinct
      rw [List.forall_mem_cons] at fresh
      refine ⟨r, read, ?_⟩
      have unknown := (lookup_key_eq_none_iff _ _).mpr fresh.1
      simp only [unknown, bind_eq_ok_iff, pure_eq_ok_iff, ih]
      refine ⟨others, ⟨others_read, distinct.2, fun other member => ?_⟩, rfl⟩
      rw [List.map_cons, List.mem_cons, not_or]
      exact ⟨fun equal => distinct.1 ⟨other, member, equal⟩, fresh.2 other member⟩

theorem identified_of_ofDocuments {documents : List (Path × Json)} {runs : List Run}
    (read : ofDocuments [] documents = .ok runs) : Identified runs := by
  obtain ⟨reads, distinct, -⟩ := (ofDocuments_eq_ok_iff [] documents runs).mp read
  refine ⟨fun r member => ?_, distinct⟩
  obtain ⟨document, -, given⟩ := exists_mem_of_forall₂ reads member
  exact ((ofDocument_eq_ok_iff document.1 document.2 r).mp given).2.2.hasId

end Run

section Stores

open Attempt

variable {σ : Type} (store : Store (StateM σ)) (s t : σ)

theorem loadManifest_gives_iff (path : Path) (l : LoadedManifest) :
    (loadManifest store path).Gives s l t ↔ ∃ document,
      (store.load path).Gives s document t ∧ LoadedManifest.ofDocument path document = .ok l := by
  simp only [loadManifest, gives_bind_iff, gives_ofExcept_iff]
  constructor
  · rintro ⟨document, u, load, read, rfl⟩
    exact ⟨document, load, read⟩
  · rintro ⟨document, load, read⟩
    exact ⟨document, t, load, read, rfl⟩

theorem loadRuns_gives_iff (dir : Path) (pattern : Pattern) (runs : List Run) :
    (loadRuns store dir pattern).Gives s runs t ↔ ∃ documents,
      (store.loadAll dir pattern).Gives s documents t ∧
        Run.ofDocuments [] documents = .ok runs := by
  simp only [loadRuns, gives_bind_iff, gives_during_iff, gives_ofExcept_iff]
  constructor
  · rintro ⟨documents, u, load, read, rfl⟩
    exact ⟨documents, load, read⟩
  · rintro ⟨documents, load, read⟩
    exact ⟨documents, t, load, read, rfl⟩

variable {store s t}

theorem loadable_of_loadManifest {path : Path} {l : LoadedManifest}
    (loads : (loadManifest store path).Gives s l t) : l.manifest.Loadable := by
  obtain ⟨document, -, read⟩ := (loadManifest_gives_iff store s t path l).mp loads
  exact ((LoadedManifest.ofDocument_eq_ok_iff path document l).mp read).2.2.1

end Stores
end ToolTrial
