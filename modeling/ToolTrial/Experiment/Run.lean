import ToolTrial.Identifier

/-!
Recorded runs: what one agent did on one task in one arm, and what it thought of the tools.
-/

set_option autoImplicit false
set_option relaxedAutoImplicit false

namespace ToolTrial

structure ToolCall where
  toolName : String
  ok : Bool
deriving DecidableEq, Repr

/-- What a run reports about its tokens. -/
structure TokenUsage where
  input : Option Nat
  output : Option Nat
  total : Option Nat
deriving DecidableEq, Repr

def TokenUsage.bound : Nat := UInt64.size

/-- The reported total, or else the sum of the two parts if it stays below the bound. -/
def TokenUsage.effectiveTotal (u : TokenUsage) : Option Nat :=
  match u.total, u.input, u.output with
  | some total, _, _ => some total
  | none, some input, some output =>
    if input + output < TokenUsage.bound then some (input + output) else none
  | none, _, _ => none

/-- What an agent says about its tools after a run. -/
structure Reflection where
  summary : String
  helpfulTools : List String
  unhelpfulTools : List String
  helpfulness : Option Int
deriving DecidableEq, Repr

/-- One run of a task in an arm.  A replicate number tells apart the runs of a cell; any integer can
be recorded as one. -/
structure Run where
  runId : String
  taskId : String
  conditionId : String
  replicate : Option Int
  agent : String
  model : String
  succeeded : Bool
  compilePassed : Bool
  testsPassed : Bool
  durationSeconds : Float
  toolsOffered : List String
  toolCalls : List ToolCall
  tokenUsage : Option TokenUsage
  reflection : Option Reflection
deriving DecidableEq

namespace Run

def helpfulness (r : Run) : Option Int :=
  r.reflection.bind (·.helpfulness)

def isInCell (r : Run) (taskId conditionId : String) : Bool :=
  Identifier.same r.taskId taskId && Identifier.same r.conditionId conditionId

/-- The least and the greatest score that counts. -/
def leastHelpfulness : Int := 1

def greatestHelpfulness : Int := 5

def isScore (score : Int) : Bool :=
  leastHelpfulness ≤ score && score ≤ greatestHelpfulness

end Run
end ToolTrial
