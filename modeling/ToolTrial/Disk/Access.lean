import ToolTrial.Failure

/-!
What programs ask of a disk, whatever it is: one that is held in memory or the one of the machine.
An attempt is a program that may stop with a failure; what it has changed by then stays changed.
-/

set_option autoImplicit false
set_option relaxedAutoImplicit false

namespace ToolTrial

/-- The operations on a disk, and the clock beside it. -/
class FileSystem (m : Type → Type) where
  /-- The text of a file. -/
  readText : Path → m (Except Fault String)
  isThere : Path → m Bool
  isFile : Path → m Bool
  isDirectory : Path → m Bool
  /-- A new directory in one that is there. -/
  makeDirectory : Path → m (Except Fault Unit)
  /-- A file with the given text, new or in place of the one before. -/
  writeText : Path → String → m (Except Fault Unit)
  /-- A file under another name, in place of a file that had that name. -/
  rename : Path → Path → m (Except Fault Unit)
  /-- What is at most so many steps below a directory, each entry once. -/
  entriesBelow : Nat → Path → m (Except Fault (List FoundEntry))
  /-- The present time as a text. -/
  timestamp : m String

/-- A program that may stop with a failure. -/
abbrev Attempt (m : Type → Type) (α : Type) := ExceptT Failure m α

namespace Attempt

variable {m : Type → Type} [Monad m] {α : Type}

/-- An attempt whose failures are seen from an activity around it. -/
def during (activity : Activity) (attempt : Attempt m α) : Attempt m α :=
  ExceptT.mk do
    match ← attempt.run with
    | .ok a => return .ok a
    | .error f => return .error (f.within activity)

def access (activity : Activity) (operation : m (Except Fault α)) : Attempt m α :=
  ExceptT.mk do
    match ← operation with
    | .ok a => return .ok a
    | .error fault => return .error ⟨[activity], .disk fault⟩

def refuse (r : Refusal) : Attempt m α := throw (Failure.refuse r)

def ofExcept (result : Except Failure α) : Attempt m α := ExceptT.mk (pure result)

end Attempt

namespace Path

/-- A path and the directories above it, from the inside out; a number bounds their count. -/
def upward : (bound : Nat) → Path → List Path
  | 0, _ => []
  | bound + 1, p =>
    if p.text.isEmpty then []
    else p :: match p.parent? with
      | some outer => upward bound outer
      | none => []

def lineage (p : Path) : List Path := upward (p.tail.length + 1) p

end Path

namespace FileSystem

variable {m : Type → Type} [Monad m] [FileSystem m]

def settleDirectory (dir : Path) : m (Except Fault Unit) := do
  match ← makeDirectory dir with
  | .ok () => return .ok ()
  | .error fault => if ← isDirectory dir then return .ok () else return .error fault

/-- The first of the given directories, and those after it where something is missing: each is the
one above the one before it. -/
def makeLineage : List Path → m (Except Fault Unit)
  | [] => return .ok ()
  | dir :: outer => do
    match ← makeDirectory dir with
    | .ok () => return .ok ()
    | .error .notFound =>
      match ← makeLineage outer with
      | .ok () => settleDirectory dir
      | .error fault => return .error fault
    | .error fault => if ← isDirectory dir then return .ok () else return .error fault

def makeDirectories (dir : Path) : m (Except Fault Unit) := makeLineage dir.lineage

/-- The name under which a file is written before it takes its place. -/
def temporaryName (name : String) : String := name ++ ".tmp"

/-- A text put in place as a whole: it is written beside its place and then moved there, so that no
reader finds a part of it. -/
def writeWhole (path : Path) (text : String) : Attempt m Unit := do
  let some dir := path.parent? | Attempt.refuse (.noParent path)
  if !dir.text.isEmpty then
    Attempt.access (.creatingDirectory dir) (makeDirectories dir)
  let some name := path.fileName? | Attempt.refuse (.noFileName path)
  let temporary := path.withFileName (temporaryName name)
  Attempt.access (.writingTemporary temporary) (writeText temporary text)
  Attempt.access (.replacing path) (rename temporary path)

end FileSystem
end ToolTrial
