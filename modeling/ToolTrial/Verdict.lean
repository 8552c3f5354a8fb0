import ToolTrial.Text.Fold

/-!
The verdict of the gate on what validation and scoring found.
-/

set_option autoImplicit false
set_option relaxedAutoImplicit false

namespace ToolTrial

structure Findings where
  manifestValid : Bool
  manifestErrorCount : Nat
  runsValid : Bool
  runErrorCount : Nat
  runWarningCount : Nat
  sufficientData : Bool
  insufficiencyNote : Option String
  failOnRunWarnings : Bool
deriving DecidableEq, Repr

/-- Whether the gate is passed, and a note for each reason why not. -/
structure Verdict where
  gatePassed : Bool
  notes : List String
deriving DecidableEq, Repr

inductive Objection
  | invalidManifest (errors : Nat)
  | invalidRuns (errors : Nat)
  | insufficientData (note : Option String)
  | runWarnings (warnings : Nat)
deriving DecidableEq, Repr

def Objection.note : Objection → String
  | .invalidManifest errors => "manifest validation failed with " ++ toString errors ++ " error(s)"
  | .invalidRuns errors => "run validation failed with " ++ toString errors ++ " error(s)"
  | .insufficientData note =>
    "insufficient data: " ++ note.getD "control and treatment each need at least one run"
  | .runWarnings warnings =>
    "hard failures: " ++ toString warnings ++
      " run validation warning(s) with fail_on_run_warnings enabled"

namespace Findings

/-- Warnings count as failures, and there are some. -/
def warningsBlock (f : Findings) : Bool :=
  f.failOnRunWarnings && 0 < f.runWarningCount

def objections (f : Findings) : List Objection :=
  (if f.manifestValid then [] else [.invalidManifest f.manifestErrorCount]) ++
    (if f.runsValid then [] else [.invalidRuns f.runErrorCount]) ++
    (if f.sufficientData then [] else [.insufficientData f.insufficiencyNote]) ++
    (if f.warningsBlock then [.runWarnings f.runWarningCount] else [])

/-- The verdict: passed when the manifest and the runs are valid, there is enough data, and no
warning blocks. -/
def verdict (f : Findings) : Verdict where
  gatePassed := f.manifestValid && f.runsValid && f.sufficientData && !f.warningsBlock
  notes := f.objections.map Objection.note

end Findings
end ToolTrial
