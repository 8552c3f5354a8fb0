import ToolTrial.Identifier
import ToolTrial.Path.Basic

/-!
The definition of an experiment: its arms, its tasks, and how often each task is to be run in each
arm.  A condition without tools is a control arm, one with tools is a treatment arm.
-/

set_option autoImplicit false
set_option relaxedAutoImplicit false

namespace ToolTrial

/-- One arm of an experiment. -/
structure Condition where
  id : String
  name : String
  toolsEnabled : Bool
  notes : Option String
deriving DecidableEq, Repr

/-- One unit of work that agents are given. -/
structure Task where
  id : String
  title : String
  repo : String
  commit : String
  acceptanceChecks : List String
  promptFile : Option Path
  repoUrl : Option String
deriving DecidableEq, Repr

/-- An experiment.  A tool whose name starts with one of the given beginnings is a treatment tool.
-/
structure Manifest where
  experimentId : String
  description : String
  toolNameStarts : List String
  conditions : List Condition
  tasks : List Task
  runsPerCell : Nat
deriving DecidableEq, Repr

namespace Manifest

def defaultToolNameStarts : List String := ["roslyn"]

def condition? (m : Manifest) (id : String) : Option Condition :=
  m.conditions.find? fun c => Identifier.same c.id id

def task? (m : Manifest) (id : String) : Option Task :=
  m.tasks.find? fun t => Identifier.same t.id id

def primaryControl? (m : Manifest) : Option Condition :=
  m.conditions.find? fun c => !c.toolsEnabled

def primaryTreatment? (m : Manifest) : Option Condition :=
  m.conditions.find? fun c => c.toolsEnabled

/-- The number of runs that fills every cell. -/
def neededRuns (m : Manifest) : Nat :=
  m.tasks.length * m.conditions.length * m.runsPerCell

/-- The number of runs that fills every cell, as far as a machine word holds it. -/
def expectedRuns (m : Manifest) : Nat :=
  m.neededRuns % UInt64.size

end Manifest
end ToolTrial
