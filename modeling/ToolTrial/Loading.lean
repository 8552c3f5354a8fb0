import ToolTrial.Digest.Sha256
import ToolTrial.Experiment.Codec
import ToolTrial.Schema.Documents
import ToolTrial.Store.Basic

/-!
Loading manifests and runs.  A document has to keep to its schema, decode, and be fit to work with;
the first fault stops the loading and is reported with the path of the document.
-/

set_option autoImplicit false
set_option relaxedAutoImplicit false

namespace ToolTrial

/-- A manifest, where it was found, and the digest of its document. -/
structure LoadedManifest where
  manifest : Manifest
  path : Path
  sha256 : String
deriving DecidableEq, Repr

/-- The directory from which a manifest at the given path sees its prompt files. -/
def Manifest.baseOf (path : Path) : Path := path.parent?.getD ⟨"."⟩

def LoadedManifest.base (l : LoadedManifest) : Path := Manifest.baseOf l.path

def Schema.check (schema : Schema) (label : String) (document : Json) : Except Failure Unit :=
  match schema.violations document with
  | [] => .ok ()
  | violations => .error (Failure.refuse (.schema label violations))

def Manifest.checkInvariants (m : Manifest) : Except Failure Unit :=
  match m.invariantFaults with
  | [] => .ok ()
  | faults => .error (Failure.refuse (.manifest faults))

def Failure.mapWithin {α : Type} (activity : Activity) : Except Failure α → Except Failure α
  | .ok a => .ok a
  | .error f => .error (f.within activity)

def Failure.ofDecoded {α : Type} (activity : Activity) :
    Except Json.DecodeError α → Except Failure α
  | .ok a => .ok a
  | .error e => .error ⟨[activity], .undecodable e⟩

/-- The digest of a document: of its compact text, so that members count in their order. -/
def Json.sha256 (document : Json) : String := Digest.ofChars document.compact

def LoadedManifest.ofDocument (path : Path) (document : Json) : Except Failure LoadedManifest := do
  Failure.mapWithin (.validatingManifest path) (Schema.manifest.check "manifest" document)
  let manifest ← Failure.ofDecoded (.decodingManifest path) (Manifest.decode document)
  Failure.mapWithin (.acceptingManifest path) manifest.checkInvariants
  return ⟨manifest, path, document.sha256⟩

namespace Run

/-- The members of a run that name something, with their values. -/
def named (r : Run) : List (String × String) :=
  [("run_id", r.runId), ("task_id", r.taskId), ("condition_id", r.conditionId)]

def isDuration (seconds : Float) : Bool := seconds.isFinite && !(seconds < 0.0)

/-- The first fault of a run that nothing can be done with. -/
def checkShape (r : Run) : Except Failure Unit :=
  match r.named.find? fun member => Text.allBlank member.2 with
  | some (name, _) => .error (Failure.refuse (.blankMember name))
  | none =>
    if isDuration r.durationSeconds then .ok ()
    else .error (Failure.refuse (.badDuration r.durationSeconds))

def ofDocument (path : Path) (document : Json) : Except Failure Run := do
  Failure.mapWithin (.validatingRun path) (Schema.run.check "run" document)
  let run ← Failure.ofDecoded (.decodingRun path) (decode document)
  Failure.mapWithin (.acceptingRun path) run.checkShape
  return run

/-- The runs in documents, in order.  `seen` are the keys of the identifiers before them, and where
those were found. -/
def ofDocuments : (seen : List (String × Path)) → List (Path × Json) → Except Failure (List Run)
  | _, [] => .ok []
  | seen, (path, document) :: rest => do
    let run ← ofDocument path document
    let key := Identifier.key run.runId
    match seen.lookup key with
    | some earlier => throw (Failure.refuse (.duplicateRun run.runId earlier path))
    | none => return run :: (← ofDocuments ((key, path) :: seen) rest)

end Run

variable {m : Type → Type} [Monad m]

def loadManifest (store : Store m) (path : Path) : Attempt m LoadedManifest := do
  let document ← store.load path
  Attempt.ofExcept (LoadedManifest.ofDocument path document)

def loadRuns (store : Store m) (dir : Path) (pattern : Pattern) : Attempt m (List Run) := do
  let documents ← Attempt.during (.loadingRuns dir) (store.loadAll dir pattern)
  Attempt.ofExcept (Run.ofDocuments [] documents)

end ToolTrial
