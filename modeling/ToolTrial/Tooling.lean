import ToolTrial.Experiment.Run
import ToolTrial.Text.Blank

/-!
Treatment tools.  A tool belongs to the treatment when its name begins with one of the beginnings
that a manifest lists; blanks around either and the case of ASCII letters do not matter.
-/

set_option autoImplicit false
set_option relaxedAutoImplicit false

namespace ToolTrial

/-- The beginnings of treatment tool names, trimmed, in small letters, and none of them empty. -/
structure Tooling where
  starts : List String
deriving DecidableEq, Repr

namespace Tooling

/-- A text as names and beginnings are compared. -/
def normal (s : String) : String := Text.lower (Text.trim s)

/-- The tooling that a manifest's list describes; blank entries describe nothing. -/
def ofList (starts : List String) : Tooling :=
  ⟨(starts.map normal).filter fun s => !s.isEmpty⟩

def isTreatmentTool (t : Tooling) (name : String) : Bool :=
  t.starts.any (Text.startsWith (normal name))

def treatmentCalls (t : Tooling) (r : Run) : List ToolCall :=
  r.toolCalls.filter fun call => t.isTreatmentTool call.toolName

def wasUsed (t : Tooling) (r : Run) : Bool :=
  !(t.treatmentCalls r).isEmpty

def wasOffered (t : Tooling) (r : Run) : Bool :=
  r.toolsOffered.any t.isTreatmentTool

end Tooling
end ToolTrial
