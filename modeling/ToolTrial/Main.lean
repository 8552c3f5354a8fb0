import Std.Time.Format
import ToolTrial.Command.Execution

/-!
The program: its commands on the disk of the machine, with the clock of the machine.
-/

set_option autoImplicit false
set_option relaxedAutoImplicit false

namespace ToolTrial.Machine

def faultOf : IO.Error → Fault
  | .noFileOrDirectory .. => .notFound
  | .alreadyExists .. => .alreadyThere
  | .inappropriateType _ code _ => if code = 21 then .isDirectory else .notDirectory
  | e => .other (toString e)

def attempt {α : Type} (operation : IO α) : IO (Except Fault α) := do
  match ← operation.toBaseIO with
  | .ok a => return .ok a
  | .error e => return .error (faultOf e)

/-- A path as an entry of the directory where relative paths start. -/
def entryOf (path : Path) : IO.FS.DirEntry := ⟨".", path.text⟩

/-- The kind of file that a path names; the empty path names none. -/
def kindOf? (path : Path) : IO (Option IO.FS.FileType) := do
  if path.text.isEmpty then return none
  match ← (entryOf path).path.metadata.toBaseIO with
  | .ok found => return some found.type
  | .error _ => return none

def namesIn (dir : Path) : IO (List String) := do
  let entries ← (entryOf dir).path.readDir
  return (entries.toList.map (·.fileName)).mergeSort fun a b => !decide (b < a)

/-- What is at most so many steps below a directory, each entry before what is below it. -/
def entriesBelow : Nat → Path → IO (List FoundEntry)
  | 0, _ => return []
  | depth + 1, dir => do
    let found ← (← namesIn dir).mapM fun name => do
      let path := dir.child name
      match ← kindOf? path with
      | some .dir => return ⟨path, false⟩ :: (← entriesBelow depth path)
      | some kind => return [⟨path, kind == .file⟩]
      | none => return []
    return found.flatten

def readText (path : Path) : IO (Except Fault String) := do
  match ← attempt (IO.FS.readBinFile path.text) with
  | .error fault => return .error fault
  | .ok bytes =>
    match String.fromUTF8? bytes with
    | some text => return .ok text
    | none => return .error .notText

def timeFormat : String := "uuuu-MM-dd'T'HH:mm:ss.SSSSSSSSSxxx"

/-- The present time in universal time. -/
def timestamp : IO String := do
  let now ← Std.Time.Timestamp.now
  return (Std.Time.DateTime.ofTimestamp now Std.Time.TimeZone.ZoneRules.UTC).format timeFormat

instance : FileSystem IO where
  readText := readText
  isThere path := return (← kindOf? path).isSome
  isFile path := return (← kindOf? path) == some .file
  isDirectory path := return (← kindOf? path) == some .dir
  makeDirectory path := attempt (IO.FS.createDir path.text)
  writeText path text := attempt (IO.FS.writeFile path.text text)
  rename source target := attempt (IO.FS.rename source.text target.text)
  entriesBelow depth dir := attempt (entriesBelow depth dir)
  timestamp := timestamp

end ToolTrial.Machine

/-- The program: it prints what its command has to say and ends with the command's code. -/
def main (arguments : List String) : IO UInt32 := do
  let printed ← ToolTrial.Command.respond (pure false) arguments
  IO.print printed.output
  IO.eprint printed.errors
  return printed.exit.toUInt32
