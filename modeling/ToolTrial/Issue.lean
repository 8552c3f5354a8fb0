/-!
Issues: what a check has to say about an experiment or its runs.  Errors invalidate the report that
lists them, warnings do not.
-/

set_option autoImplicit false
set_option relaxedAutoImplicit false

namespace ToolTrial

inductive Severity
  | error
  | warning
deriving DecidableEq, Repr

inductive Scope
  | experiment
  | condition
  | task
  | run
deriving DecidableEq, Repr

/-- One finding of a check, attributed to the entity with the given identifier. -/
structure Issue where
  severity : Severity
  scope : Scope
  id : String
  message : String
deriving DecidableEq, Repr

namespace Issue

/-- An issue that invalidates its report. -/
def error (scope : Scope) (id message : String) : Issue := ⟨.error, scope, id, message⟩

/-- An issue that leaves its report valid. -/
def warning (scope : Scope) (id message : String) : Issue := ⟨.warning, scope, id, message⟩

def isError (issue : Issue) : Bool :=
  issue.severity == .error

def errorCount (issues : List Issue) : Nat :=
  issues.countP isError

def warningCount (issues : List Issue) : Nat :=
  issues.length - errorCount issues

/-- Errors before warnings, each in their order, and no more than `limit` of them. -/
def top (limit : Nat) (issues : List Issue) : List Issue :=
  (issues.filter isError ++ issues.filter fun issue => !issue.isError).take limit

end Issue
end ToolTrial
