import ToolTrial.Experiment.Codec
import ToolTrial.Store.Basic
import ToolTrial.Worklist

/-!
Drafts: run documents that are waiting to be filled in, one for each pending run.  The name of a
draft is that of its run, and no draft lies outside of its directory.
-/

set_option autoImplicit false
set_option relaxedAutoImplicit false

namespace ToolTrial.Draft

def placeholder : String := "TODO"

/-- The draft of a pending run.  A treatment run is offered what the manifest calls treatment
tools. -/
def ofPending (m : Manifest) (p : PendingRun) : Except Failure Run :=
  match m.condition? p.conditionId with
  | none => .error (Failure.refuse (.unknownCondition p.runId p.conditionId))
  | some condition => .ok {
      runId := p.runId
      taskId := p.taskId
      conditionId := p.conditionId
      replicate := some p.replicate
      agent := placeholder
      model := placeholder
      succeeded := false
      compilePassed := false
      testsPassed := false
      durationSeconds := 0.0
      toolsOffered := if condition.toolsEnabled then m.toolNameStarts else []
      toolCalls := []
      tokenUsage := none
      reflection := some ⟨placeholder, [], [], none⟩ }

/-- Where the draft of a run lies; an identifier that names no file in the directory has none. -/
def path (dir : Path) (runId : String) : Except Failure Path :=
  if runId.isEmpty || !Identifier.fileSafe runId then
    .error (Failure.refuse (.unsafeDraft runId dir))
  else .ok (dir.child (runId ++ ".json"))

/-- The paths of drafts that were written and of those that were left alone, in order. -/
structure Written where
  written : List Path
  skipped : List Path
deriving DecidableEq, Repr

variable {m : Type → Type} [Monad m]

/-- Drafts at known paths, one after the other.  A document that is there stays as it is unless
writing is forced. -/
def writeAt (store : Store m) (isThere : Path → m Bool) (manifest : Manifest) (force : Bool) :
    List (PendingRun × Path) → Attempt m Written
  | [] => return ⟨[], []⟩
  | (pending, path) :: rest => do
    if !force && (← isThere path) then
      let others ← writeAt store isThere manifest force rest
      return { others with skipped := path :: others.skipped }
    else
      let run ← Attempt.ofExcept (ofPending manifest pending)
      store.save path run.toJson
      let others ← writeAt store isThere manifest force rest
      return { others with written := path :: others.written }

/-- Drafts for pending runs in a directory.  All paths are checked before anything is written. -/
def write (store : Store m) (isThere : Path → m Bool) (manifest : Manifest)
    (pending : List PendingRun) (dir : Path) (force : Bool) : Attempt m Written := do
  let paths ← Attempt.ofExcept (pending.mapM fun p => path dir p.runId)
  writeAt store isThere manifest force (pending.zip paths)

def writeMissing (store : Store m) (isThere : Path → m Bool) (manifest : Manifest)
    (runs : List Run) (dir : Path) (force : Bool) : Attempt m Written :=
  Attempt.during (.writingDrafts dir)
    (write store isThere manifest (Worklist.ofRuns manifest runs).pendingRuns dir force)

end ToolTrial.Draft
