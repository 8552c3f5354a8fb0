import ToolTrial.Path.Basic

/-!
A disk: directories and files under one root, and the directory where relative paths start.  Each
operation either changes the disk as a whole or fails with a fault and leaves it as it was.
-/

set_option autoImplicit false
set_option relaxedAutoImplicit false

namespace ToolTrial

inductive Fault
  | notFound
  | notDirectory
  | isDirectory
  | alreadyThere
  | nameTooLong
  | badName
  | notText
  | other (reason : String)
deriving DecidableEq, Repr

def Fault.message : Fault → String
  | .notFound => "No such file or directory (os error 2)"
  | .notDirectory => "Not a directory (os error 20)"
  | .isDirectory => "Is a directory (os error 21)"
  | .alreadyThere => "File exists (os error 17)"
  | .nameTooLong => "File name too long (os error 36)"
  | .badName => "file name contained an unexpected NUL byte"
  | .notText => "stream did not contain valid UTF-8"
  | .other reason => reason

/-- A place on a disk: the names of the directories from the root down, and its own name last. -/
abbrev Location := List String

/-- What a file holds: a text, or bytes that are none. -/
inductive Content
  | text (s : String)
  | undecodable
deriving DecidableEq, Repr

inductive Entry
  | directory
  | file (content : Content)
deriving DecidableEq, Repr

def Entry.isFile : Entry → Bool
  | .directory => false
  | .file _ => true

structure FoundEntry where
  path : Path
  isFile : Bool
deriving DecidableEq, Repr

/-- The directory where relative paths start, and all entries but the root. -/
structure Disk where
  workplace : Location
  entries : List (Location × Entry)
deriving DecidableEq, Repr

namespace Disk

def empty (workplace : Location) : Disk where
  workplace := workplace
  entries := (List.range workplace.length).map fun n => (workplace.take (n + 1), .directory)

/-- The entry at a location.  The root is a directory. -/
def lookup (d : Disk) (place : Location) : Option Entry :=
  if place = [] then some .directory else d.entries.lookup place

/-- Entries with one set, in place if there was one there before. -/
def setEntry (place : Location) (entry : Entry) :
    List (Location × Entry) → List (Location × Entry)
  | [] => [(place, entry)]
  | (p, e) :: rest => if p = place then (p, entry) :: rest else (p, e) :: setEntry place entry rest

def put (d : Disk) (place : Location) (entry : Entry) : Disk :=
  { d with entries := setEntry place entry d.entries }

def erase (d : Disk) (place : Location) : Disk :=
  { d with entries := d.entries.filter fun e => e.1 ≠ place }

/-- The greatest length of a name, and the length that no path reaches, in bytes. -/
def nameLimit : Nat := 255

def pathLimit : Nat := 4096

/-- The place that steps lead to.  Every step starts from a directory; the last one may lead to a
name that nothing has yet. -/
def walk (d : Disk) : Location → List Path.Component → Except Fault Location
  | place, [] => .ok place
  | place, step :: rest =>
    match d.lookup place with
    | none => .error .notFound
    | some (.file _) => .error .notDirectory
    | some .directory =>
      match step with
      | .root => walk d [] rest
      | .current => walk d place rest
      | .parent => walk d place.dropLast rest
      | .name s =>
        if nameLimit < s.utf8ByteSize then .error .nameTooLong else walk d (place ++ [s]) rest

def resolve (d : Disk) (p : Path) : Except Fault Location :=
  if p.text.isEmpty then .error .notFound
  else if p.text.toList.contains '\x00' then .error .badName
  else if pathLimit ≤ p.text.utf8ByteSize then .error .nameTooLong
  else do
    let place ← d.walk (if p.isAbsolute then [] else d.workplace) p.components
    match d.lookup place with
    | some (.file _) => if p.asksForDirectory then throw .notDirectory else return place
    | _ => return place

def entry (d : Disk) (p : Path) : Except Fault Entry := do
  match d.lookup (← d.resolve p) with
  | some e => return e
  | none => throw .notFound

def isThere (d : Disk) (p : Path) : Bool :=
  match d.entry p with
  | .ok _ => true
  | .error _ => false

def isFile (d : Disk) (p : Path) : Bool :=
  match d.entry p with
  | .ok (.file _) => true
  | _ => false

def isDirectory (d : Disk) (p : Path) : Bool :=
  match d.entry p with
  | .ok .directory => true
  | _ => false

def readText (d : Disk) (p : Path) : Except Fault String := do
  match ← d.entry p with
  | .directory => throw .isDirectory
  | .file (.text s) => return s
  | .file .undecodable => throw .notText

def makeDirectory (d : Disk) (p : Path) : Except Fault Disk := do
  let place ← d.resolve p
  match d.lookup place with
  | some _ => throw .alreadyThere
  | none => if p.endsInDot then throw .notFound else return d.put place .directory

/-- A file with the given content, new or in place of the one before. -/
def writeContent (d : Disk) (p : Path) (content : Content) : Except Fault Disk := do
  let place ← d.resolve p
  if p.asksForDirectory then throw .isDirectory
  match d.lookup place with
  | some .directory => throw .isDirectory
  | _ => return d.put place (.file content)

def writeText (d : Disk) (p : Path) (s : String) : Except Fault Disk :=
  d.writeContent p (.text s)

/-- A file under another name, in place of a file that had that name. -/
def rename (d : Disk) (source target : Path) : Except Fault Disk := do
  let sourcePlace ← d.resolve source
  let targetPlace ← d.resolve target
  if target.asksForDirectory then throw .notDirectory
  match d.lookup sourcePlace, d.lookup targetPlace with
  | none, _ => throw .notFound
  | some .directory, _ => throw .isDirectory
  | some (.file _), some .directory => throw .isDirectory
  | some (.file content), _ => return (d.erase sourcePlace).put targetPlace (.file content)

def placeBefore : Location → Location → Bool
  | [], [] => false
  | [], _ :: _ => true
  | _ :: _, [] => false
  | a :: as, b :: bs => a < b || (a == b && placeBefore as bs)

def below? : Location → Location → Option Location
  | [], place => if place.isEmpty then none else some place
  | a :: as, b :: bs => if a = b then below? as bs else none
  | _ :: _, [] => none

def under (d : Disk) (place : Location) : List (Location × Entry) :=
  (d.entries.filterMap fun e => (below? place e.1).map (·, e.2)).mergeSort
    fun a b => !placeBefore b.1 a.1

/-- What is at most `depth` steps below a location, with paths that start from a directory. -/
def found (d : Disk) (place : Location) (depth : Nat) (dir : Path) : List FoundEntry :=
  ((d.under place).filter fun e => decide (e.1.length ≤ depth)).map fun e =>
    ⟨e.1.foldl Path.child dir, e.2.isFile⟩

/-- What is at most `depth` steps below a directory, each entry once. -/
def entriesBelow (d : Disk) (depth : Nat) (dir : Path) : Except Fault (List FoundEntry) := do
  return d.found (← d.resolve dir) depth dir

/-- Everything below the workplace as texts, directories with a separator at the end. -/
def listing (d : Disk) : List String :=
  let shown (e : Location × Entry) : String :=
    Text.join "/" e.1 ++ (match e.2 with | .directory => "/" | .file _ => "")
  ((d.under d.workplace).map shown).mergeSort fun a b => !decide (b < a)

end Disk
end ToolTrial
