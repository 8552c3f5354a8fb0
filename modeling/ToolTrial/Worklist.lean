import ToolTrial.Experiment.Manifest
import ToolTrial.Experiment.Run
import ToolTrial.Number.Binary64

/-!
The worklist: which runs are still missing.  Every pair of a task and a condition is a cell that
wants the same number of runs; a missing run takes the least positive replicate number that is
free in its cell.
-/

set_option autoImplicit false
set_option relaxedAutoImplicit false

namespace ToolTrial

/-- The state of one cell.  The replicate numbers are the positive ones in use, ascending. -/
structure Cell where
  taskId : String
  conditionId : String
  targetRuns : Nat
  observedRuns : Nat
  missingRuns : Nat
  usedReplicates : List Int
deriving DecidableEq, Repr

structure PendingRun where
  runId : String
  taskId : String
  conditionId : String
  replicate : Int
deriving DecidableEq, Repr

structure Worklist where
  expectedRuns : Nat
  observedRuns : Nat
  completionRate : Float
  cells : List Cell
  pendingRuns : List PendingRun
deriving DecidableEq

/-- Sets of replicate numbers, as ascending lists without repetitions. -/
abbrev Replicates := List Int

namespace Replicates

def insert (n : Int) : Replicates → Replicates
  | [] => [n]
  | k :: rest => if n = k then k :: rest else if n < k then n :: k :: rest else k :: insert n rest

def ofList (numbers : List Int) : Replicates :=
  numbers.foldl (fun used n => insert n used) []

/-- The `count` least positive numbers outside a set.  Among as many numbers as the set has members
and `count` more, at least `count` are free. -/
def free (used : Replicates) (count : Nat) : List Int :=
  let candidates := (List.range (used.length + count)).map fun (n : Nat) => (n : Int) + 1
  (candidates.filter fun n => !used.contains n).take count

/-- The numbers of `free`, and the set with them in it. -/
def take (used : Replicates) (count : Nat) : List Int × Replicates :=
  let assigned := used.free count
  (assigned, assigned.foldl (fun used n => insert n used) used)

end Replicates

namespace PendingRun

def replicateText (n : Int) : String :=
  if 0 ≤ n ∧ n < 10 then "0" ++ toString n else toString n

def idOf (taskId conditionId : String) (replicate : Int) : String :=
  taskId ++ "__" ++ conditionId ++ "__r" ++ replicateText replicate

def of (taskId conditionId : String) (replicate : Int) : PendingRun :=
  ⟨idOf taskId conditionId replicate, taskId, conditionId, replicate⟩

end PendingRun

namespace Cell

def of (target : Nat) (runs : List Run) (taskId conditionId : String) : Cell :=
  let observed := runs.filter fun r => r.isInCell taskId conditionId
  { taskId := taskId
    conditionId := conditionId
    targetRuns := target
    observedRuns := observed.length
    missingRuns := target - observed.length
    usedReplicates := Replicates.ofList ((observed.filterMap (·.replicate)).filter (0 < ·)) }

def pending (c : Cell) : List PendingRun :=
  (Replicates.free c.usedReplicates c.missingRuns).map (PendingRun.of c.taskId c.conditionId)

end Cell

namespace Worklist

/-- The cells of a manifest, task by task and in each task condition by condition. -/
def cellsOf (m : Manifest) (runs : List Run) : List Cell :=
  m.tasks.flatMap fun t => m.conditions.map fun c => Cell.of m.runsPerCell runs t.id c.id

/-- The share of the expected runs that has been observed, and no more than all. -/
def completion (observed expected : Nat) : Float :=
  if expected = 0 then 0.0
  else
    let share := Number.ofNat observed / Number.ofNat expected
    if share < 1.0 then share else 1.0

def ofRuns (m : Manifest) (runs : List Run) : Worklist :=
  let cells := cellsOf m runs
  { expectedRuns := m.expectedRuns
    observedRuns := runs.length
    completionRate := completion runs.length m.expectedRuns
    cells := cells
    pendingRuns := cells.flatMap Cell.pending }

end Worklist
end ToolTrial
