import ToolTrial.Store.Basic
import ToolTrial.Store.Documents

/-!
A place to work in that is a value: a disk, documents in memory, a clock that stands still, and a
count of what has been asked of a store.
-/

set_option autoImplicit false
set_option relaxedAutoImplicit false

namespace ToolTrial

structure Workspace where
  disk : Disk
  documents : Documents
  clock : String
  /-- The number of requests that a metered store has answered. -/
  answered : Nat

namespace Workspace

def look {α : Type} (f : Disk → α) : StateM Workspace α :=
  fun w => (f w.disk, w)

/-- A change of the disk, which leaves it as it was when it fails. -/
def change (f : Disk → Except Fault Disk) : StateM Workspace (Except Fault Unit) :=
  fun w => match f w.disk with
    | .ok disk => (.ok (), { w with disk := disk })
    | .error fault => (.error fault, w)

instance : FileSystem (StateM Workspace) where
  readText path := look (·.readText path)
  isThere path := look (·.isThere path)
  isFile path := look (·.isFile path)
  isDirectory path := look (·.isDirectory path)
  makeDirectory path := change (·.makeDirectory path)
  writeText path text := change (·.writeText path text)
  rename source target := change (·.rename source target)
  entriesBelow depth dir := look (·.entriesBelow depth dir)
  timestamp := fun w => (w.clock, w)

end Workspace

namespace Store

def inMemory : Store (StateM Workspace) where
  load path := do
    match (← get).documents.lookup path with
    | some document => return document
    | none => Attempt.refuse (.noDocument path)
  loadAll dir pattern := do
    let docs := (← get).documents
    let found := (docs.inside dir).filter fun e => fits pattern e.1
    if found.isEmpty && !docs.hasDirectory dir then Attempt.refuse (.noDirectory dir)
    return found
  save path document := modify fun w => { w with documents := w.documents.insert path document }

/-- An attempt whose answer is counted, whatever it is. -/
def counted {α : Type} (attempt : Attempt (StateM Workspace) α) : Attempt (StateM Workspace) α :=
  ExceptT.mk do
    let answer ← attempt.run
    modify fun w => { w with answered := w.answered + 1 }
    return answer

def metered (store : Store (StateM Workspace)) : Store (StateM Workspace) where
  load path := counted (store.load path)
  loadAll dir pattern := counted (store.loadAll dir pattern)
  save path document := counted (store.save path document)

end Store
end ToolTrial
