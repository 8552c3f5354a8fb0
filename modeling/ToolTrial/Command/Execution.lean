import ToolTrial.Command.Arguments
import ToolTrial.Gate
import ToolTrial.Settings.Basic

/-!
Carrying out commands.  A command writes its report, prints one line about it, and ends with a code
that says how it went.
-/

set_option autoImplicit false
set_option relaxedAutoImplicit false

namespace ToolTrial

/-- How a call of the program ends: its code, and what it prints on either channel. -/
structure Printed where
  exit : Nat
  output : String
  errors : String
deriving DecidableEq, Repr

namespace Command

def exitOk : Nat := 0

def exitFatal : Nat := 1

/-- The gate was not passed, or the arguments were not understood. -/
def exitRefused : Nat := 2

/-- A manifest or runs that are not valid. -/
def exitInvalid : Nat := 3

def shown (b : Bool) : String := if b then "true" else "false"

def line (fields : List (String × String)) : String :=
  Text.join " " (fields.map fun field => field.1 ++ "=" ++ field.2) ++ "\n"

def printed (exit : Nat) (fields : List (String × String)) : Printed :=
  ⟨exit, line fields, ""⟩

def validExit (valid : Bool) : Nat := if valid then exitOk else exitInvalid

def worklistName : String := "worklist.json"

variable {m : Type → Type} [Monad m] [FileSystem m]

def inputs (settings : Settings) (store : Store m) (manifest runs : Path) :
    Attempt m (LoadedManifest × List Run) := do
  let loaded ← loadManifest store manifest
  let pattern ← Attempt.ofExcept settings.pattern
  return (loaded, ← loadRuns store runs pattern)

/-- What the gate works on: the settings where the command does not say otherwise. -/
def gateOptions (settings : Settings) (manifest runs : Path) (outDir : Option Path)
    (failOnRunWarnings : Bool) : Except Failure GateOptions := do
  return {
    manifestPath := manifest
    runsDir := runs
    outDir := outDir.getD settings.outputDir
    runFilePattern := ← settings.pattern
    failOnRunWarnings := failOnRunWarnings || settings.failOnRunWarnings
    maxExportIssues := settings.maxExportIssues }

/-- One command under its settings.  `stopped` tells whether the gate is to end early. -/
def perform (stopped : m Bool) (settings : Settings) (command : Command) :
    Attempt m Printed := do
  let store : Store m := Store.onDisk settings.runDirMaxDepth
  let placed (out : Option Path) (name : String) : Path :=
    out.getD (settings.outputDir.child name)
  match command with
  | .validateManifest manifest out => do
    let loaded ← loadManifest store manifest
    let out := placed out Gate.manifestReportName
    let report ← reportManifest store FileSystem.isFile loaded out
    return printed (validExit report.valid)
      [("valid", shown report.valid), ("errors", toString report.errorCount),
       ("warnings", toString report.warningCount), ("report", out.text)]
  | .validateRuns manifest runs out => do
    let (loaded, records) ← inputs settings store manifest runs
    let out := placed out Gate.runReportName
    let report ← reportRuns store loaded.manifest records out
    return printed (validExit report.validation.valid)
      [("valid", shown report.validation.valid),
       ("runs", toString report.validation.totalRuns),
       ("errors", toString report.validation.errorCount),
       ("warnings", toString report.validation.warningCount), ("report", out.text)]
  | .score manifest runs out => do
    let (loaded, records) ← inputs settings store manifest runs
    let out := placed out Gate.scoreName
    let report ← reportScore store loaded records out
    return printed exitOk
      [("sufficient_data", shown report.sufficientData), ("runs", toString report.totalRuns),
       ("report", out.text)]
  | .worklist manifest runs out => do
    let (loaded, records) ← inputs settings store manifest runs
    let out := placed out worklistName
    let report ← reportWorklist store loaded.manifest records out
    return printed exitOk
      [("expected", toString report.worklist.expectedRuns),
       ("observed", toString report.worklist.observedRuns),
       ("pending", toString report.worklist.pendingRuns.length), ("report", out.text)]
  | .templates manifest runs outDir force => do
    let (loaded, records) ← inputs settings store manifest runs
    let drafts ← Draft.writeMissing store FileSystem.isFile loaded.manifest records outDir force
    return printed exitOk
      [("written", toString drafts.written.length), ("skipped", toString drafts.skipped.length),
       ("out_dir", outDir.text)]
  | .export scorePath runReportPath out => do
    let out := placed out Gate.summaryName
    exportSummary store scorePath runReportPath settings.maxExportIssues out
    return printed exitOk [("summary", out.text)]
  | .gate manifest runs outDir failOnRunWarnings => do
    let options ← Attempt.ofExcept (gateOptions settings manifest runs outDir failOnRunWarnings)
    let report ← Gate.run store FileSystem.isFile stopped options
    let output := line
      [("gate_passed", shown report.gatePassed), ("notes", toString report.notes.length),
       ("report", (Gate.reportPath options.outDir).text)]
    let errors := String.join (report.notes.map (· ++ "\n"))
    return ⟨if report.gatePassed then exitOk else exitRefused, output, errors⟩

def versionLine : String := "agent-eval 0.1.0\n"

def usage : String := "Usage: agent-eval [OPTIONS] <COMMAND>\n"

def respond (stopped : m Bool) (arguments : List String) : m Printed := do
  match Arguments.request arguments with
  | .version => return ⟨exitOk, versionLine, ""⟩
  | .help => return ⟨exitOk, usage, ""⟩
  | .misuse => return ⟨exitRefused, "", usage⟩
  | .run config command =>
    let attempt : Attempt m Printed := do
      let settings ← Settings.load config
      perform stopped settings command
    match ← attempt.run with
    | .ok outcome => return outcome
    | .error f => return ⟨exitFatal, "", f.message ++ "\n"⟩

end Command
end ToolTrial
