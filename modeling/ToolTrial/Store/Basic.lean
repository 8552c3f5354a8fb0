import ToolTrial.Disk.Access
import ToolTrial.Json.Reader
import ToolTrial.Pattern.Basic

/-!
Stores of documents.  A store loads one document, loads the documents of a directory whose names
fit a pattern, in the order of their paths, and saves one; `onDisk` keeps documents in files.
-/

set_option autoImplicit false
set_option relaxedAutoImplicit false

namespace ToolTrial

/-- Where documents are loaded from and saved to. -/
structure Store (m : Type → Type) where
  load : Path → Attempt m Json
  loadAll : Path → Pattern → Attempt m (List (Path × Json))
  save : Path → Json → Attempt m Unit

namespace Store

variable {m : Type → Type} [Monad m] [FileSystem m]

def loadFile (path : Path) : Attempt m Json := do
  let text ← Attempt.access (.reading path) (FileSystem.readText path)
  match Json.parse? text with
  | some document => return document
  | none => throw ⟨[.parsing path], .malformedJson⟩

def fits (pattern : Pattern) (path : Path) : Bool :=
  path.fileName?.any pattern.isFoundIn

/-- The paths of the files among some entries, as far as their names fit a pattern. -/
def sought (pattern : Pattern) (entries : List FoundEntry) : List Path :=
  (entries.filter fun e => e.isFile && fits pattern e.path).map (·.path)

def inOrder (documents : List (Path × Json)) : List (Path × Json) :=
  documents.mergeSort fun a b => !b.1.before a.1

/-- A store of files, which looks for the documents of a directory down to a depth of at least one.
-/
def onDisk (depth : Nat) : Store m where
  load := loadFile
  loadAll dir pattern := do
    let isThere ← (FileSystem.isDirectory dir : m Bool)
    if !isThere then Attempt.refuse (.noDirectory dir)
    let entries ← Attempt.access (.walking dir) (FileSystem.entriesBelow (max 1 depth) dir)
    let documents ← (sought pattern entries).mapM fun path => do return (path, ← loadFile path)
    return inOrder documents
  save path document := FileSystem.writeWhole path document.savedText

def loadAs {m : Type → Type} [Monad m] {α : Type} (store : Store m) (decode : Json.Decoder α)
    (path : Path) : Attempt m α := do
  match decode (← store.load path) with
  | .ok a => return a
  | .error e => throw ⟨[.decoding path], .undecodable e⟩

end Store
end ToolTrial
