import ToolTrial.Proofs.Documents
import ToolTrial.Proofs.IdentifierIssues
import ToolTrial.Proofs.Loading

/-!
Where the loading of runs stops.  Documents are accepted when each of them stands for a run and no
two of these have one identifier; otherwise the first document in order that is not fit, or whose
run has the identifier of an earlier one, decides the failure, and the failure names its path.  The
check of runs finds nothing wrong with the identifiers of runs that were accepted.
-/

set_option autoImplicit false
set_option relaxedAutoImplicit false

namespace ToolTrial

def Failure.Names (f : Failure) (path : Path) : Prop :=
  path.text.toList <:+: f.message.toList

namespace Run

/-- A document that stands for a run with which something can be done. -/
structure DocumentedBy (document : Json) (r : Run) : Prop where
  valid : Schema.run.violations document = []
  decoded : decode document = .ok r
  hasId : Text.allBlank r.runId = false
  hasTask : Text.allBlank r.taskId = false
  hasCondition : Text.allBlank r.conditionId = false
  isFinite : r.durationSeconds.isFinite = true
  notNegative : ¬ r.durationSeconds < 0.0

/-- Documents that stand for runs, one by one, no two of which have one identifier. -/
structure Accepted (documents : List (Path × Json)) (runs : List Run) : Prop where
  documented : List.Forall₂ (fun entry r => DocumentedBy entry.2 r) documents runs
  distinct : runs.Pairwise fun r r' => Identifier.same r.runId r'.runId = false

/-- What a document that stands for no run is reported with: its first fault, in the order of the
checks. -/
inductive Unfit (path : Path) (document : Json) : Failure → Prop
  | schema {violations : List Schema.Violation}
      (broken : Schema.run.violations document = violations) (some : violations ≠ []) :
      Unfit path document ⟨[.validatingRun path], .refusal (.schema "run" violations)⟩
  | undecodable {e : Json.DecodeError} (valid : Schema.run.violations document = [])
      (refused : decode document = .error e) :
      Unfit path document ⟨[.decodingRun path], .undecodable e⟩
  | blank {r : Run} {name value : String} (valid : Schema.run.violations document = [])
      (decoded : decode document = .ok r)
      (first : r.named.find? (fun member => Text.allBlank member.2) = some (name, value)) :
      Unfit path document ⟨[.acceptingRun path], .refusal (.blankMember name)⟩
  | duration {r : Run} (valid : Schema.run.violations document = [])
      (decoded : decode document = .ok r)
      (named : ∀ member ∈ r.named, Text.allBlank member.2 = false)
      (impossible : r.durationSeconds.isFinite = true → r.durationSeconds < 0.0) :
      Unfit path document ⟨[.acceptingRun path], .refusal (.badDuration r.durationSeconds)⟩

/-- What a document is reported with behind accepted ones and their runs: its own fault, or else the
one path before it whose run has its identifier. -/
inductive Stops (before : List (Path × Run)) (path : Path) (document : Json) : Failure → Prop
  | unfit {f : Failure} (h : Unfit path document f) : Stops before path document f
  | repeated {r other : Run} {earlier : Path} (documented : DocumentedBy document r)
      (taken : before.filter (fun e => Identifier.same e.2.runId r.runId) = [(earlier, other)]) :
      Stops before path document (Failure.refuse (.duplicateRun r.runId earlier path))

/-- A failure at the first document that is not accepted behind those before it. -/
structure FailsFirst (documents : List (Path × Json)) (f : Failure) : Prop where
  stops : ∃ before path document after runs, documents = before ++ (path, document) :: after ∧
    Accepted before runs ∧ Stops ((before.map Prod.fst).zip runs) path document f ∧ f.Names path
  namesEarlier : ∀ id earlier later, f = Failure.refuse (.duplicateRun id earlier later) →
    f.Names earlier

theorem isDuration_iff (seconds : Float) :
    isDuration seconds = true ↔ seconds.isFinite = true ∧ ¬ seconds < 0.0 := by
  rw [isDuration, Bool.and_eq_true, Bool.not_eq_true', decide_eq_false_iff_not]

theorem documentedBy_iff (path : Path) (document : Json) (r : Run) :
    DocumentedBy document r ↔ ofDocument path document = .ok r := by
  rw [ofDocument_eq_ok_iff]
  constructor
  · intro h
    refine ⟨h.valid, h.decoded, h.hasId, h.hasTask, h.hasCondition, ?_⟩
    exact (isDuration_iff _).mpr ⟨h.isFinite, h.notNegative⟩
  · rintro ⟨valid, decoded, usable⟩
    obtain ⟨finite, notNegative⟩ := (isDuration_iff _).mp usable.hasDuration
    exact ⟨valid, decoded, usable.hasId, usable.hasTask, usable.hasCondition, finite, notNegative⟩

theorem accepted_iff (documents : List (Path × Json)) (runs : List Run) :
    Accepted documents runs ↔ ofDocuments [] documents = .ok runs := by
  rw [ofDocuments_eq_ok_iff, Identifier.nodup_keys_iff_pairwise Run.runId]
  simp only [← documentedBy_iff]
  constructor
  · intro h
    exact ⟨h.documented, h.distinct, fun _ _ => List.not_mem_nil⟩
  · rintro ⟨documented, apart, -⟩
    exact ⟨documented, apart⟩

section Faults

variable {path : Path} {document : Json} {f : Failure}

private theorem checkShape_error {r : Run} {f : Failure} (failed : r.checkShape = .error f) :
    (∃ name value, r.named.find? (fun member => Text.allBlank member.2) = some (name, value) ∧
      f = Failure.refuse (.blankMember name)) ∨
    ((∀ member ∈ r.named, Text.allBlank member.2 = false) ∧
      (r.durationSeconds.isFinite = true → r.durationSeconds < 0.0) ∧
      f = Failure.refuse (.badDuration r.durationSeconds)) := by
  rw [checkShape] at failed
  cases found : r.named.find? fun member => Text.allBlank member.2 with
  | some member =>
    rw [found] at failed
    exact .inl ⟨member.1, member.2, rfl, (Except.error.inj failed).symm⟩
  | none =>
    right
    have named : ∀ member ∈ r.named, Text.allBlank member.2 = false := by
      simpa using List.find?_eq_none.mp found
    simp only [found] at failed
    split at failed
    case isTrue => cases failed
    case isFalse impossible =>
      rw [isDuration_iff, not_and, not_not] at impossible
      exact ⟨named, impossible, (Except.error.inj failed).symm⟩

theorem unfit_of_ofDocument (failed : ofDocument path document = .error f) :
    Unfit path document f := by
  simp only [ofDocument, bind_eq_error_iff, mapWithin_eq_error_iff, check_eq_error_iff,
    mapWithin_eq_ok_iff, ofDecoded_eq_error_iff, ofDecoded_eq_ok_iff] at failed
  rcases failed with ⟨-, ⟨some, rfl⟩, rfl⟩ | ⟨⟨⟩, checked, failed⟩
  · exact .schema rfl some
  have valid := (check_eq_ok_iff _ _ _).mp checked
  rcases failed with ⟨e, refused, rfl⟩ | ⟨r, decoded, ⟨g, shape, rfl⟩ | ⟨⟨⟩, -, done⟩⟩
  · exact .undecodable valid refused
  · rcases checkShape_error shape with ⟨name, value, first, rfl⟩ | ⟨named, impossible, rfl⟩
    · exact .blank valid decoded first
    · exact .duration valid decoded named impossible
  · cases done

private theorem names_of_activity {activity : Activity} (start : String)
    (mentions : activity.message = start ++ path.text) (cause : Cause) :
    (⟨[activity], cause⟩ : Failure).Names path := by
  have spelled : (⟨[activity], cause⟩ : Failure).message =
      start ++ path.text ++ ": " ++ cause.message := by
    rw [← mentions]
    rfl
  refine ⟨start.toList, (": " ++ cause.message).toList, ?_⟩
  rw [spelled]
  simp only [String.toList_append, List.append_assoc]

theorem Unfit.names (h : Unfit path document f) : f.Names path := by
  cases h with
  | schema => exact names_of_activity "validate run " rfl _
  | undecodable => exact names_of_activity "deserialize run " rfl _
  | blank => exact names_of_activity "invalid run " rfl _
  | duration => exact names_of_activity "invalid run " rfl _

private theorem names_duplicate (id : String) (earlier later : Path) :
    (Failure.refuse (.duplicateRun id earlier later)).Names earlier ∧
      (Failure.refuse (.duplicateRun id earlier later)).Names later := by
  have spelled : (Failure.refuse (.duplicateRun id earlier later)).message =
      "duplicate run_id " ++ Text.quoted id ++ " in " ++ earlier.text ++ " and " ++ later.text :=
    rfl
  rw [Failure.Names, Failure.Names, spelled]
  constructor
  · refine ⟨("duplicate run_id " ++ Text.quoted id ++ " in ").toList,
      (" and " ++ later.text).toList, ?_⟩
    simp only [String.toList_append, List.append_assoc]
  · refine ⟨("duplicate run_id " ++ Text.quoted id ++ " in " ++ earlier.text ++ " and ").toList,
      [], ?_⟩
    simp only [String.toList_append, List.append_nil]

theorem Stops.names {before : List (Path × Run)} (h : Stops before path document f) :
    f.Names path := by
  cases h with
  | unfit fault => exact fault.names
  | repeated => exact (names_duplicate _ _ _).2

end Faults

section Keys

/-- What is remembered of the runs that were found at paths: their keys, the last one first. -/
private def remembered (before : List (Path × Run)) (seen : List (String × Path)) :
    List (String × Path) :=
  (before.map fun e => (Identifier.key e.2.runId, e.1)).reverse ++ seen

private theorem exists_of_ofDocuments_eq_error {seen : List (String × Path)}
    {documents : List (Path × Json)} {f : Failure}
    (failed : ofDocuments seen documents = .error f) :
    ∃ before path document after runs, documents = before ++ (path, document) :: after ∧
      ofDocuments seen before = .ok runs ∧
      (ofDocument path document = .error f ∨ ∃ r earlier, ofDocument path document = .ok r ∧
        (remembered ((before.map Prod.fst).zip runs) seen).lookup (Identifier.key r.runId) =
          some earlier ∧
        f = Failure.refuse (.duplicateRun r.runId earlier path)) := by
  -- the documents before the faulty one are read, and what has been seen grows by them
  induction documents generalizing seen with
  | nil => cases failed
  | cons entry rest ih =>
    obtain ⟨path, document⟩ := entry
    rw [ofDocuments, bind_eq_error_iff] at failed
    rcases failed with unread | ⟨r, read, failed⟩
    · exact ⟨[], path, document, rest, [], rfl, rfl, .inl unread⟩
    · cases known : seen.lookup (Identifier.key r.runId) with
      | some earlier =>
        simp only [known] at failed
        exact ⟨[], path, document, rest, [], rfl, rfl,
          .inr ⟨r, earlier, read, known, (Except.error.inj failed).symm⟩⟩
      | none =>
        simp only [known, bind_eq_error_iff] at failed
        rcases failed with continued | ⟨others, -, closed⟩
        · obtain ⟨before, path', document', after, runs, rfl, reads, fault⟩ := ih continued
          refine ⟨(path, document) :: before, path', document', after, r :: runs, rfl, ?_, ?_⟩
          · refine bind_eq_ok_iff.mpr ⟨r, read, ?_⟩
            simp only [known]
            exact bind_eq_ok_iff.mpr ⟨runs, reads, rfl⟩
          · have grown : remembered ((path, r) :: (before.map Prod.fst).zip runs) seen =
                remembered ((before.map Prod.fst).zip runs)
                  ((Identifier.key r.runId, path) :: seen) := by
              simp [remembered]
            rw [List.map_cons, List.zip_cons_cons, grown]
            exact fault
        · cases closed

private theorem filter_of_lookup {before : List (Path × Run)} {id : String} {earlier : Path}
    (distinct : (before.map fun e => Identifier.key e.2.runId).Nodup)
    (known : (remembered before []).lookup (Identifier.key id) = some earlier) :
    ∃ other, before.filter (fun e => Identifier.same e.2.runId id) = [(earlier, other)] := by
  obtain ⟨front, back, split, -⟩ := List.lookup_eq_some_iff.mp known
  have member : (Identifier.key id, earlier) ∈ remembered before [] := by
    rw [split]
    exact List.mem_append_right _ List.mem_cons_self
  rw [remembered, List.append_nil, List.mem_reverse, List.mem_map] at member
  obtain ⟨⟨path, other⟩, inside, equal⟩ := member
  obtain ⟨key, rfl⟩ := Prod.mk.inj equal
  let answers (e : Path × Run) : Bool := Identifier.same e.2.runId id
  have same : answers (path, other) = true := (Identifier.same_iff_key_eq _ _).mpr key
  refine ⟨other, ?_⟩
  obtain ⟨front, back, rfl⟩ := List.append_of_mem inside
  rw [List.map_append, List.map_cons, List.nodup_middle, List.nodup_cons,
    List.mem_append] at distinct
  have unlike (e : Path × Run) (there : e ∈ front ∨ e ∈ back) :
      ¬ answers e = true := by
    intro again
    apply distinct.1
    have answer := ((Identifier.same_iff_key_eq _ _).mp again).trans key.symm
    exact there.imp (fun h => List.mem_map.mpr ⟨e, h, answer⟩)
      fun h => List.mem_map.mpr ⟨e, h, answer⟩
  show (front ++ (path, other) :: back).filter answers = [(path, other)]
  rw [List.filter_append, List.filter_cons_of_pos same,
    List.filter_eq_nil_iff.mpr fun e h => unlike e (.inl h),
    List.filter_eq_nil_iff.mpr fun e h => unlike e (.inr h), List.nil_append]

end Keys

/-- Documents that are not accepted fail at the first one that does not go with those before it. -/
theorem failsFirst_of_ofDocuments {documents : List (Path × Json)} {f : Failure}
    (failed : ofDocuments [] documents = .error f) : FailsFirst documents f := by
  obtain ⟨before, path, document, after, runs, split, reads, fault⟩ :=
    exists_of_ofDocuments_eq_error failed
  have accepted := (accepted_iff before runs).mpr reads
  have stops : Stops ((before.map Prod.fst).zip runs) path document f := by
    rcases fault with unread | ⟨r, earlier, read, known, rfl⟩
    · exact .unfit (unfit_of_ofDocument unread)
    · have many : runs.length ≤ (before.map Prod.fst).length :=
        Nat.le_of_eq ((List.length_map _).trans accepted.documented.length_eq).symm
      have keys : ((before.map Prod.fst).zip runs).map (fun e => Identifier.key e.2.runId) =
          runs.map fun r => Identifier.key r.runId := by
        have paired := congrArg (List.map fun r : Run => Identifier.key r.runId)
          (List.map_snd_zip many)
        rwa [List.map_map] at paired
      have distinct := ((ofDocuments_eq_ok_iff [] before runs).mp reads).2.1
      rw [← keys] at distinct
      obtain ⟨other, taken⟩ := filter_of_lookup distinct known
      exact .repeated ((documentedBy_iff path document r).mpr read) taken
  refine ⟨⟨before, path, document, after, runs, split, accepted, stops, stops.names⟩, ?_⟩
  rintro id earlier later rfl
  exact (names_duplicate id earlier later).1

end Run

section Stores

open Attempt
open Pattern (documentNames)

variable {σ : Type} {store : Store (StateM σ)} {dir : Path} {pattern : Pattern} {s t : σ}
  {documents : List (Path × Json)}

/-- Whatever documents a store lists, the runs of a directory are loaded exactly when the documents
are accepted, and then they are the runs for which these stand, in their order.  Otherwise the first
document that is not accepted behind those before it decides the failure.  No check of loaded runs
reports a blank identifier or a repeated one. -/
theorem loadRuns_accepts_or_stops (listed : (store.loadAll dir pattern).Gives s documents t) :
    (∀ runs u, (loadRuns store dir pattern).Gives s runs u ↔ u = t ∧ Run.Accepted documents runs) ∧
    ((∀ runs, ¬ Run.Accepted documents runs) →
      ∃ f, (loadRuns store dir pattern).outcome s = (.error f, t) ∧ Run.FailsFirst documents f) ∧
    ∀ runs u, (loadRuns store dir pattern).Gives s runs u → ∀ m : Manifest,
      (RunValidation.ofRuns m runs).issues.filter Issue.isAboutIdentifier = [] := by
  have answer : (loadRuns store dir pattern).outcome s = (Run.ofDocuments [] documents, t) := by
    have within := (gives_during_iff (.loadingRuns dir) _ _ _ _).mpr listed
    rw [loadRuns, outcome_bind, within]
    exact outcome_ofExcept _ _
  refine ⟨?_, ?_, ?_⟩
  · intro runs u
    rw [Gives, answer, Prod.mk.injEq, Run.accepted_iff]
    constructor
    · rintro ⟨read, rfl⟩
      exact ⟨rfl, read⟩
    · rintro ⟨rfl, read⟩
      exact ⟨read, rfl⟩
  · intro none
    cases read : Run.ofDocuments [] documents with
    | ok runs => exact absurd ((Run.accepted_iff documents runs).mpr read) (none runs)
    | error f =>
      rw [read] at answer
      exact ⟨f, answer, Run.failsFirst_of_ofDocuments read⟩
  · intro runs u given m
    rw [Gives, answer, Prod.mk.injEq] at given
    exact RunValidation.filter_issues_of_identified m (Run.identified_of_ofDocuments given.1)

section Samples

private def holding (ids : List String) : Workspace where
  disk := Disk.empty ["work"]
  documents := ids.zipIdx.map fun e =>
    (Path.child ⟨"runs"⟩ (toString e.2 ++ ".json"), (Run.ofPair e.1 "plain" none []).toJson)
  clock := "now"
  answered := 0

/-- Two runs that differ are loaded; a third one with an identifier of one of them is not. -/
theorem loadRuns_accepts_or_stops_pair :
    (Store.inMemory.loadAll ⟨"runs"⟩ documentNames).Gives (holding ["a", "b"])
      (holding ["a", "b"]).documents (holding ["a", "b"]) ∧
    (∃ runs, runs.length = 2 ∧ Run.Accepted (holding ["a", "b"]).documents runs) ∧
    (Store.inMemory.loadAll ⟨"runs"⟩ documentNames).Gives (holding ["a", "b", "A"])
      (holding ["a", "b", "A"]).documents (holding ["a", "b", "A"]) ∧
    ∃ f, f.message = "duplicate run_id 'A' in runs/0.json and runs/2.json" ∧
      Run.FailsFirst (holding ["a", "b", "A"]).documents f := by
  have lists (ids : List String)
      (found : Store.found ⟨"runs"⟩ documentNames (holding ids).documents = (holding ids).documents)
      (some : (holding ids).documents ≠ []) :
      (Store.inMemory.loadAll ⟨"runs"⟩ documentNames).Gives (holding ids) (holding ids).documents
        (holding ids) := by
    apply (Store.inMemory_loadAll_gives_iff _ _ _ _ _).mpr
    exact ⟨.inl (found.symm ▸ some), found, rfl⟩
  have two := lists ["a", "b"] (by decide +kernel) (by decide +kernel)
  have three := lists ["a", "b", "A"] (by decide +kernel) (by decide +kernel)
  have loaded : ((loadRuns Store.inMemory ⟨"runs"⟩ documentNames).outcome
      (holding ["a", "b"])).1.toOption.map List.length = some 2 := by
    decide +kernel
  have stopped : ((loadRuns Store.inMemory ⟨"runs"⟩ documentNames).outcome
      (holding ["a", "b", "A"])).1 =
        .error (Failure.refuse (.duplicateRun "A" ⟨"runs/0.json"⟩ ⟨"runs/2.json"⟩)) := by
    decide +kernel
  obtain ⟨runs, given, many⟩ := Option.map_eq_some_iff.mp loaded
  have accepted := ((loadRuns_accepts_or_stops two).1 runs _).mp (gives_of_toOption_eq_some given)
  obtain ⟨f, failed, first⟩ := (loadRuns_accepts_or_stops three).2.1 fun others accepted => by
    have given := ((loadRuns_accepts_or_stops three).1 others _).mpr ⟨rfl, accepted⟩
    rw [Gives] at given
    rw [given] at stopped
    cases stopped
  rw [failed] at stopped
  refine ⟨two, ⟨runs, many, accepted.2⟩, three, f, ?_, first⟩
  rw [Except.error.inj stopped]
  decide +kernel

end Samples
end Stores
end ToolTrial
