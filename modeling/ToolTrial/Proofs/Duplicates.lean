import ToolTrial.Proofs.Agreement
import ToolTrial.Proofs.ManifestDocument
import ToolTrial.Proofs.Rejection

/-!
Duplicate identifiers.  Four checks look for them: the loading of a manifest and that of runs at all
identifiers, the reports on both at those that are not blank.  Each of them gathers the keys of what
it has seen, and what it finds are the repeated ones among the identifiers that it looks at; so it
finds none exactly when no two of these are spellings of one identifier.  A name has one answer at
most in every manifest that is loaded.
-/

set_option autoImplicit false
set_option relaxedAutoImplicit false

namespace ToolTrial

namespace Identifier

def named (ids : List String) : List String :=
  ids.filter fun id => !Text.allBlank id

theorem repeated_named_cons (seen : List String) (id : String) (rest : List String) :
    repeated seen (named (id :: rest)) =
      if Text.allBlank id then repeated seen (named rest)
      else (if seen.contains (key id) then [id] else []) ++
        repeated (key id :: seen) (named rest) := by
  cases blank : Text.allBlank id with
  | true => rw [if_pos rfl, named, List.filter_cons_of_neg (by simp [blank]), named]
  | false =>
    rw [if_neg Bool.false_ne_true, named, List.filter_cons_of_pos (by simp [blank]),
      repeated, named]

theorem repeated_eq_nil_iff_not_recurs (ids : List String) :
    repeated [] ids = [] ↔ ¬ Recurs ids := by
  rw [recurs_iff, not_not, repeated_eq_nil_iff]
  exact and_iff_left fun _ _ => List.not_mem_nil

end Identifier

namespace Issue

/-- The identifiers of the errors whose messages begin in a given way. -/
def blamed (start : String) (issues : List Issue) : List String :=
  (issues.filter fun issue => issue.isError && Text.startsWith issue.message start).map (·.id)

variable (start : String)

@[simp]
theorem blamed_append (issues rest : List Issue) :
    blamed start (issues ++ rest) = blamed start issues ++ blamed start rest := by
  rw [blamed, List.filter_append, List.map_append]
  rfl

variable {start}

theorem blamed_cons_of_other {issue : Issue} (other : Text.startsWith issue.message start = false)
    (rest : List Issue) : blamed start (issue :: rest) = blamed start rest := by
  rw [blamed, List.filter_cons_of_neg, blamed]
  rw [other, Bool.and_false]
  exact Bool.false_ne_true

section Conditional

variable {p : Prop} [Decidable p]

theorem blamed_ite_of_other {issue : Issue}
    (other : Text.startsWith issue.message start = false) :
    blamed start (if p then [issue] else []) = [] := by
  split
  · exact blamed_cons_of_other other []
  · rfl

theorem blamed_ite_of_start (scope : Scope) (id rest : String) :
    blamed start (if p then [.error scope id (start ++ rest)] else []) =
      if p then [id] else [] := by
  split
  · rw [blamed, List.filter_cons_of_pos]
    · rfl
    · exact Text.startsWith_append start rest
  · rfl

end Conditional

end Issue

namespace Manifest

def ids (m : Manifest) : Kind → List String
  | .condition => m.conditions.map (·.id)
  | .task => m.tasks.map (·.id)

def Fault.duplicate? (kind : Kind) : Fault → Option String
  | .duplicate k id => if k = kind then some id else none
  | _ => none

/-- The duplicates of a kind because of which a manifest is not loaded. -/
def duplicates {α : Type} (kind : Kind) : Except Failure α → List String
  | .error ⟨_, .refusal (.manifest faults)⟩ => faults.filterMap (Fault.duplicate? kind)
  | _ => []

section Loading

private theorem filterMap_duplicate?_when (kind : Kind) (present : Bool) {fault : Fault}
    (other : fault.duplicate? kind = none) :
    (when present fault).filterMap (Fault.duplicate? kind) = [] := by
  cases present
  · rfl
  · exact List.filterMap_cons_none other

private theorem filterMap_duplicate?_idFaults (kind k : Kind) (ids : List String) :
    (idFaults k ids).filterMap (Fault.duplicate? kind) =
      if k = kind then Identifier.repeated [] ids else [] := by
  have unsafeIds : ((ids.filter fun id => !Identifier.fileSafe id).map (Fault.unsafeId k)).filterMap
      (Fault.duplicate? kind) = [] := by
    rw [List.filterMap_map, List.filterMap_eq_nil_iff]
    exact fun _ _ => rfl
  rw [idFaults, List.filterMap_append, unsafeIds, List.append_nil, List.filterMap_map]
  split
  case isTrue equal =>
    subst equal
    exact (List.filterMap_congr fun id _ => if_pos rfl).trans List.filterMap_some
  case isFalse apart =>
    exact List.filterMap_eq_nil_iff.mpr fun id _ => if_neg apart

theorem filterMap_duplicate?_invariantFaults (m : Manifest) (kind : Kind) :
    m.invariantFaults.filterMap (Fault.duplicate? kind) = Identifier.repeated [] (m.ids kind) := by
  simp only [invariantFaults, List.filterMap_append, filterMap_duplicate?_idFaults]
  rw [filterMap_duplicate?_when kind _ rfl, filterMap_duplicate?_when kind _ rfl,
    filterMap_duplicate?_when kind _ rfl, filterMap_duplicate?_when kind _ rfl,
    filterMap_duplicate?_when kind _ rfl]
  cases kind <;> simp [ids]

/-- A document that keeps to the schema and decodes is loaded without duplicates, or it is refused
for the repeated ones of its identifiers. -/
theorem duplicates_ofDocument {path : Path} {document : Json} {m : Manifest}
    (valid : Schema.manifest.violations document = []) (decoded : decode document = .ok m)
    (kind : Kind) : duplicates kind (LoadedManifest.ofDocument path document) =
      Identifier.repeated [] (m.ids kind) := by
  rw [← filterMap_duplicate?_invariantFaults, LoadedManifest.ofDocument,
    (check_eq_ok_iff _ _ _).mpr valid, decoded]
  show duplicates kind (Failure.mapWithin (.acceptingManifest path) m.checkInvariants >>= fun _ =>
    pure (⟨m, path, document.sha256⟩ : LoadedManifest)) = _
  rw [checkInvariants]
  cases m.invariantFaults <;> rfl

end Loading

section Report

variable (kind : Kind)

def Kind.duplicateStart : String :=
  "duplicate " ++ kind.name ++ " id "

private theorem blamed_experimentIssues (m : Manifest) :
    Issue.blamed kind.duplicateStart m.experimentIssues = [] := by
  simp only [experimentIssues, experimentError, Issue.blamed_append]
  repeat rw [Issue.blamed_ite_of_other]
  · rfl
  all_goals cases kind <;> decide

private theorem blamed_conditionIssues (seen : List String) (conditions : List Condition) :
    Issue.blamed kind.duplicateStart (conditionIssues seen conditions) =
      match kind with
      | .condition => Identifier.repeated seen (Identifier.named (conditions.map (·.id)))
      | .task => [] := by
  induction conditions generalizing seen with
  | nil => cases kind <;> rfl
  | cons c rest ih =>
    rw [List.map_cons, Identifier.repeated_named_cons, conditionIssues]
    split
    next blank =>
      rw [Issue.blamed_cons_of_other (by cases kind <;> decide), ih]
    next given =>
      rw [Issue.blamed_append, ih]
      cases kind with
      | condition => exact congrArg (· ++ _) (Issue.blamed_ite_of_start _ _ _)
      | task =>
        rw [Issue.blamed_ite_of_other, List.nil_append]
        exact Text.startsWith_eq_false (by decide) _

private theorem blamed_taskIssues (base : Path) (exist : Path → Bool) (t : Task) :
    Issue.blamed kind.duplicateStart (taskIssues base exist t) = [] := by
  have about (rest : String) :
      Text.startsWith ("task " ++ Text.quoted t.id ++ rest) kind.duplicateStart = false := by
    rw [String.append_assoc]
    exact Text.startsWith_eq_false (by cases kind <;> decide) _
  simp only [taskIssues, Issue.blamed_append]
  rw [Issue.blamed_ite_of_other, Issue.blamed_ite_of_other, Issue.blamed_ite_of_other,
    Issue.blamed_ite_of_other]
  · cases promptPath? base t with
    | none => rfl
    | some p => exact Issue.blamed_ite_of_other (about (" prompt file not found: " ++ p.text))
  · exact about " has no acceptance checks"
  · exact about " is missing commit"
  · exact about " is missing repo"
  · exact about " has no title"

private theorem blamed_tasksIssues (base : Path) (exist : Path → Bool) (seen : List String)
    (tasks : List Task) : Issue.blamed kind.duplicateStart (tasksIssues base exist seen tasks) =
      match kind with
      | .condition => []
      | .task => Identifier.repeated seen (Identifier.named (tasks.map (·.id))) := by
  induction tasks generalizing seen with
  | nil => cases kind <;> rfl
  | cons t rest ih =>
    rw [List.map_cons, Identifier.repeated_named_cons, tasksIssues]
    split
    next blank =>
      rw [Issue.blamed_cons_of_other (by cases kind <;> decide), ih]
    next given =>
      rw [Issue.blamed_append, Issue.blamed_append, blamed_taskIssues, List.append_nil, ih]
      cases kind with
      | condition =>
        rw [Issue.blamed_ite_of_other, List.nil_append]
        exact Text.startsWith_eq_false (by decide) _
      | task => exact congrArg (· ++ _) (Issue.blamed_ite_of_start _ _ _)

theorem blamed_issues (m : Manifest) (base : Path) (exist : Path → Bool) :
    Issue.blamed kind.duplicateStart (m.issues base exist) =
      Identifier.repeated [] (Identifier.named (m.ids kind)) := by
  rw [issues, Issue.blamed_append, Issue.blamed_append, blamed_experimentIssues,
    blamed_conditionIssues, blamed_tasksIssues]
  cases kind <;> simp [ids]

end Report

end Manifest

namespace RunValidation

variable (m : Manifest)

def duplicateStart : String := "duplicate run_id "

private theorem blamed_idIssues (earlier : List Run) (r : Run) :
    Issue.blamed duplicateStart (idIssues earlier r) =
      if Text.allBlank r.runId then []
      else if (earlier.filterMap idKey?).contains (Identifier.key r.runId) then [r.runId]
      else [] := by
  rw [idIssues, idKey?]
  cases Text.allBlank r.runId with
  | true =>
    refine Issue.blamed_cons_of_other ?_ []
    simp only [Issue.error, String.append_assoc]
    exact Text.startsWith_eq_false (by decide) _
  | false => exact Issue.blamed_ite_of_start _ _ _

private theorem blamed_issuesOf (earlier : List Run) (r : Run) :
    Issue.blamed duplicateStart (issuesOf m earlier r) =
      Issue.blamed duplicateStart (idIssues earlier r) := by
  rw [← filter_issuesOf m, Issue.blamed, Issue.blamed, List.filter_filter]
  congr 2
  funext issue
  rw [Issue.isAboutIdentifier, duplicateStart]
  cases issue.isError <;> cases Text.startsWith issue.message "duplicate run_id " <;> simp

private theorem blamed_issuesFrom (earlier runs : List Run) :
    Issue.blamed duplicateStart (issuesFrom m earlier runs) =
      Identifier.repeated (earlier.filterMap idKey?) (Identifier.named (runs.map (·.runId))) := by
  -- the keys that are known of the runs before grow with each run
  induction runs generalizing earlier with
  | nil => rfl
  | cons r rest ih =>
    rw [issuesFrom, Issue.blamed_append, blamed_issuesOf, blamed_idIssues, ih, List.map_cons,
      Identifier.repeated_named_cons, List.filterMap_cons, idKey?]
    cases Text.allBlank r.runId <;> rfl

/-- The check of runs blames the repeated ones of their identifiers that say something. -/
theorem blamed_ofRuns (runs : List Run) :
    Issue.blamed duplicateStart (ofRuns m runs).issues =
      Identifier.repeated [] (Identifier.named (runs.map (·.runId))) := by
  have coverage : Issue.blamed duplicateStart (coverageIssues m runs) = [] := by
    refine Issue.blamed_ite_of_other ?_
    simp only [Issue.warning, String.append_assoc]
    exact Text.startsWith_eq_false (by decide) _
  rw [ofRuns, Issue.blamed_append, coverage, List.append_nil]
  exact blamed_issuesFrom m [] runs

end RunValidation

namespace Run

/-- The identifier at which the loading of runs stops because an earlier run has it. -/
def duplicate? : Except Failure (List Run) → Option String
  | .error ⟨_, .refusal (.duplicateRun id _ _)⟩ => some id
  | _ => none

/-- The runs in the documents before the first one that gives none. -/
def beforeFault : List (Path × Json) → List Run
  | [] => []
  | (path, document) :: rest =>
    match ofDocument path document with
    | .ok r => r :: beforeFault rest
    | .error _ => []

section Steps

variable {seen : List (String × Path)} {path : Path} {document : Json} {r : Run}
  (read : ofDocument path document = .ok r) (rest : List (Path × Json))
include read

private theorem beforeFault_cons :
    beforeFault ((path, document) :: rest) = r :: beforeFault rest := by
  rw [beforeFault, read]

private theorem ofDocuments_cons_of_known {earlier : Path}
    (known : seen.lookup (Identifier.key r.runId) = some earlier) :
    ofDocuments seen ((path, document) :: rest) =
      .error (Failure.refuse (.duplicateRun r.runId earlier path)) := by
  rw [ofDocuments, read]
  simp only [bind, Except.bind, known]
  rfl

private theorem ofDocuments_cons_of_new (new : seen.lookup (Identifier.key r.runId) = none) :
    ofDocuments seen ((path, document) :: rest) =
      ofDocuments ((Identifier.key r.runId, path) :: seen) rest >>= fun others =>
        pure (r :: others) := by
  rw [ofDocuments, read]
  simp only [bind, Except.bind, new]

end Steps

private theorem duplicate?_of_unfit {path : Path} {document : Json} {f : Failure}
    (unfit : Unfit path document f) : duplicate? (.error f) = none := by
  cases unfit <;> rfl

private theorem duplicate?_bind (r : Run) (others : Except Failure (List Run)) :
    duplicate? (others >>= fun runs => pure (r :: runs)) = duplicate? others := by
  cases others <;> rfl

theorem duplicate?_ofDocuments (seen : List (String × Path)) (documents : List (Path × Json)) :
    duplicate? (ofDocuments seen documents) =
      (Identifier.repeated (seen.map Prod.fst) ((beforeFault documents).map (·.runId))).head? := by
  -- the keys that have been seen grow with each run
  induction documents generalizing seen with
  | nil => rfl
  | cons entry rest ih =>
    obtain ⟨path, document⟩ := entry
    cases read : ofDocument path document with
    | error f =>
      rw [ofDocuments, beforeFault, read]
      exact duplicate?_of_unfit (unfit_of_ofDocument read)
    | ok r =>
      rw [beforeFault_cons read, List.map_cons, Identifier.repeated]
      have unknown := lookup_key_eq_none_iff (Identifier.key r.runId) seen
      cases known : seen.lookup (Identifier.key r.runId) with
      | some earlier =>
        have inside : (seen.map Prod.fst).contains (Identifier.key r.runId) = true := by
          simpa [known] using unknown
        rw [ofDocuments_cons_of_known read rest known, if_pos inside]
        rfl
      | none =>
        have outside : ¬ (seen.map Prod.fst).contains (Identifier.key r.runId) = true := by
          simpa [known] using unknown
        rw [ofDocuments_cons_of_new read rest known, duplicate?_bind, ih, if_neg outside]
        rfl

end Run

section Stores

open Attempt

variable {σ : Type} (store : Store (StateM σ))

/-- However identifiers are compared, it comes to their keys: one by one, when duplicates are looked
for, and when a loaded manifest is asked for an identifier. -/
structure Identifier.ComparisonsAgree : Prop where
  same_iff : ∀ a b, same a b = true ↔ key a = key b
  /-- Spellings may be compared by their bytes. -/
  same_iff_bytes : ∀ a b,
    same a b = true ↔ List.Forall₂ Text.SameByte (Text.bytes a) (Text.bytes b)
  bytes_key : ∀ a, Text.bytes (key a) = (Text.bytes a).map Text.lowerByte
  equivalence : Equivalence fun a b => same a b = true
  /-- Loading a manifest looks at all identifiers of a kind. -/
  manifestLoad : ∀ s t path document m, (store.load path).Gives s document t →
    Schema.manifest.violations document = [] → Manifest.decode document = .ok m → ∀ kind,
      (Manifest.duplicates kind ((loadManifest store path).outcome s).1 = [] ↔
        ¬ Recurs (m.ids kind))
  /-- Loading runs looks at the identifiers of all of them, up to a document that gives none. -/
  runLoad : ∀ s t dir pattern documents, (store.loadAll dir pattern).Gives s documents t →
    (Run.duplicate? ((loadRuns store dir pattern).outcome s).1 = none ↔
      ¬ Recurs ((Run.beforeFault documents).map (·.runId)))
  /-- The report on a manifest looks at the identifiers of a kind that say something. -/
  manifestCheck : ∀ (m : Manifest) base exist kind,
    Issue.blamed kind.duplicateStart (m.issues base exist) = [] ↔ ¬ Recurs (named (m.ids kind))
  /-- The check of runs looks at their identifiers that say something. -/
  runCheck : ∀ m runs,
    Issue.blamed RunValidation.duplicateStart (RunValidation.ofRuns m runs).issues = [] ↔
      ¬ Recurs (named (runs.map (·.runId)))
  /-- A name has one answer at most among the conditions of a loaded manifest. -/
  condition : ∀ s t path l, (loadManifest store path).Gives s l t → ∀ id,
    l.manifest.conditions.countP (fun c => same c.id id) ≤ 1 ∧
      ∀ c, l.manifest.condition? id = some c ↔ c ∈ l.manifest.conditions ∧ same c.id id = true
  /-- A name has one answer at most among the tasks of a loaded manifest. -/
  task : ∀ s t path l, (loadManifest store path).Gives s l t → ∀ id,
    l.manifest.tasks.countP (fun t => same t.id id) ≤ 1 ∧
      ∀ t, l.manifest.task? id = some t ↔ t ∈ l.manifest.tasks ∧ same t.id id = true

variable {store}

private theorem duplicates_loadManifest {s t : σ} {path : Path} {document : Json} {m : Manifest}
    (held : (store.load path).Gives s document t)
    (valid : Schema.manifest.violations document = [])
    (decoded : Manifest.decode document = .ok m) (kind : Manifest.Kind) :
    Manifest.duplicates kind ((loadManifest store path).outcome s).1 =
      Identifier.repeated [] (m.ids kind) := by
  rw [loadManifest, outcome_bind, held]
  exact Manifest.duplicates_ofDocument valid decoded kind

private theorem duplicate?_loadRuns {s t : σ} {dir : Path} {pattern : Pattern}
    {documents : List (Path × Json)} (listed : (store.loadAll dir pattern).Gives s documents t) :
    Run.duplicate? ((loadRuns store dir pattern).outcome s).1 =
      (Identifier.repeated [] ((Run.beforeFault documents).map (·.runId))).head? := by
  have within := (gives_during_iff (.loadingRuns dir) _ _ _ _).mpr listed
  rw [loadRuns, outcome_bind, within]
  exact Run.duplicate?_ofDocuments [] documents

variable (store)

/-- All comparisons of identifiers agree, whatever store documents are loaded from. -/
theorem Identifier.comparisonsAgree : ComparisonsAgree store where
  same_iff := same_iff_key_eq
  same_iff_bytes := Text.sameLetters_iff_bytes
  bytes_key := Text.bytes_lower
  equivalence := equivalence_same
  manifestLoad := by
    intro s t path document m held valid decoded kind
    rw [duplicates_loadManifest held valid decoded, repeated_eq_nil_iff_not_recurs]
  runLoad := by
    intro s t dir pattern documents listed
    rw [duplicate?_loadRuns listed, List.head?_eq_none_iff, repeated_eq_nil_iff_not_recurs]
  manifestCheck := by
    intro m base exist kind
    rw [Manifest.blamed_issues, repeated_eq_nil_iff_not_recurs]
  runCheck := by
    intro m runs
    rw [RunValidation.blamed_ofRuns, repeated_eq_nil_iff_not_recurs]
  condition := by
    intro s t path l given id
    have distinct := (loadable_of_loadManifest given).distinctConditions
    exact ⟨countP_same_le_one Condition.id distinct id,
      find?_same_eq_some_iff Condition.id distinct id⟩
  task := by
    intro s t path l given id
    have distinct := (loadable_of_loadManifest given).distinctTasks
    exact ⟨countP_same_le_one Task.id distinct id, find?_same_eq_some_iff Task.id distinct id⟩

section Samples

private def withArms (first second : String) : Manifest :=
  { Manifest.pair with conditions := [⟨first, "", false, none⟩, ⟨second, "", true, none⟩] }

private def umlauts : Workspace where
  disk := Disk.empty ["work"]
  documents := [(⟨"apart.json"⟩, (withArms "Äb" "äb").toJson),
    (⟨"alike.json"⟩, (withArms "Äb" "ÄB").toJson)]
  clock := "now"
  answered := 0

/-- Beyond ASCII, letter case tells identifiers apart. -/
theorem Identifier.comparisonsAgree_umlauts :
    (Store.inMemory.load ⟨"apart.json"⟩).Gives umlauts (withArms "Äb" "äb").toJson umlauts ∧
    Manifest.duplicates .condition
      ((loadManifest Store.inMemory ⟨"apart.json"⟩).outcome umlauts).1 = [] ∧
    (Store.inMemory.load ⟨"alike.json"⟩).Gives umlauts (withArms "Äb" "ÄB").toJson umlauts ∧
    Manifest.duplicates .condition
      ((loadManifest Store.inMemory ⟨"alike.json"⟩).outcome umlauts).1 ≠ [] := by
  have loads := (comparisonsAgree Store.inMemory).manifestLoad umlauts umlauts
  have apart := loads ⟨"apart.json"⟩ (withArms "Äb" "äb").toJson _ rfl (Manifest.accepts_toJson _)
    (Manifest.decode_toJson (by decide)) .condition
  have alike := loads ⟨"alike.json"⟩ (withArms "Äb" "ÄB").toJson _ rfl (Manifest.accepts_toJson _)
    (Manifest.decode_toJson (by decide)) .condition
  rw [recurs_iff, not_not] at apart alike
  refine ⟨rfl, apart.mpr (by decide), rfl, ?_⟩
  intro none
  exact absurd (alike.mp none) (by decide)

end Samples
end Stores
end ToolTrial
