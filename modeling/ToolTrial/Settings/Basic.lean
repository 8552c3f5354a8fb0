import ToolTrial.Disk.Access
import ToolTrial.Experiment.Codec
import ToolTrial.Pattern.Reader
import ToolTrial.Toml.Reader

/-!
Settings of the program.  They are read from a table of settings, where each one may be left out; a
file that is not there leaves them all out.
-/

set_option autoImplicit false
set_option relaxedAutoImplicit false

namespace ToolTrial

open Json (Decoder DecodeError Member Record)

structure Settings where
  /-- The directory that reports go to. -/
  outputDir : Path
  /-- The pattern that the names of run files fit. -/
  runFilePattern : String
  /-- How deep run files may lie in their directory. -/
  runDirMaxDepth : Nat
  failOnRunWarnings : Bool
  /-- The greatest number of issues in a summary. -/
  maxExportIssues : Nat
deriving DecidableEq, Repr

namespace Settings

def defaults : Settings := ⟨⟨"eval-out"⟩, "^.*\\.json$", 1, false, 20⟩

/-- The pattern that a text spells; a failure does not repeat the text. -/
def readPattern (text : String) : Except Failure Pattern :=
  match Pattern.read? text with
  | some pattern => .ok pattern
  | none => .error ⟨[], .malformedPattern⟩

def pattern (s : Settings) : Except Failure Pattern :=
  match readPattern s.runFilePattern with
  | .ok pattern => .ok pattern
  | .error f => .error (f.within (.readingRunFilePattern s.runFilePattern))

/-- The first setting that has to be something else. -/
def check (s : Settings) : Except Failure Unit := do
  if s.outputDir.text.isEmpty then throw (Failure.refuse (.badSetting "output_dir" "non-empty"))
  if s.runDirMaxDepth = 0 then throw (Failure.refuse (.badSetting "run_dir_max_depth" "> 0"))
  if s.maxExportIssues = 0 then throw (Failure.refuse (.badSetting "max_export_issues" "> 0"))
  let _ ← s.pattern
  return ()

def toJson (s : Settings) : Json :=
  .object [("output_dir", s.outputDir.toJson), ("run_file_pattern", .text s.runFilePattern),
    ("run_dir_max_depth", Json.ofNat s.runDirMaxDepth),
    ("fail_on_run_warnings", .bool s.failOnRunWarnings),
    ("max_export_issues", Json.ofNat s.maxExportIssues)]

def members : List Member :=
  [.of "output_dir" Path.decode, .of "run_file_pattern" Decoder.text,
   .of "run_dir_max_depth" Decoder.count, .of "fail_on_run_warnings" Decoder.boolean,
   .of "max_export_issues" Decoder.count]

def decode : Decoder Settings := fun j => do
  let r ← Record.read "PipelineConfig" members j
  return {
    outputDir := ← r.orDefault "output_dir" defaults.outputDir Path.decode
    runFilePattern := ← r.orDefault "run_file_pattern" defaults.runFilePattern Decoder.text
    runDirMaxDepth := ← r.orDefault "run_dir_max_depth" defaults.runDirMaxDepth Decoder.count
    failOnRunWarnings :=
      ← r.orDefault "fail_on_run_warnings" defaults.failOnRunWarnings Decoder.boolean
    maxExportIssues := ← r.orDefault "max_export_issues" defaults.maxExportIssues Decoder.count }

/-- A text in a table; another value is none. -/
def textIn? (entries : Toml.Entries) (key default : String) : Option String :=
  match entries.lookup key with
  | none => some default
  | some (.text s) => some s
  | some _ => none

def booleanIn? (entries : Toml.Entries) (key : String) (default : Bool) : Option Bool :=
  match entries.lookup key with
  | none => some default
  | some (.boolean b) => some b
  | some _ => none

def countBound : Int := UInt64.size

def countIn? (entries : Toml.Entries) (key : String) (default : Nat) : Option Nat :=
  match entries.lookup key with
  | none => some default
  | some (.integer n) => if 0 ≤ n ∧ n < countBound then some n.toNat else none
  | some _ => none

/-- The settings in a table; further entries do not matter. -/
def ofEntries? (entries : Toml.Entries) : Option Settings := do
  return {
    outputDir := ⟨← textIn? entries "output_dir" defaults.outputDir.text⟩
    runFilePattern := ← textIn? entries "run_file_pattern" defaults.runFilePattern
    runDirMaxDepth := ← countIn? entries "run_dir_max_depth" defaults.runDirMaxDepth
    failOnRunWarnings := ← booleanIn? entries "fail_on_run_warnings" defaults.failOnRunWarnings
    maxExportIssues := ← countIn? entries "max_export_issues" defaults.maxExportIssues }

def parse? (text : String) : Option Settings := do
  ofEntries? (← Toml.read? text)

variable {m : Type → Type} [Monad m] [FileSystem m]

/-- The settings in a file, or the defaults when there is none. -/
def load (path : Path) : Attempt m Settings := do
  let isThere ← (FileSystem.isThere path : m Bool)
  if isThere then
    let text ← Attempt.access (.reading path) (FileSystem.readText path)
    match parse? text with
    | none => throw ⟨[.parsing path], .malformedToml⟩
    | some settings =>
      Attempt.during (.acceptingSettings path) (Attempt.ofExcept settings.check)
      return settings
  else return defaults

end Settings
end ToolTrial
