import ToolTrial.Json.Decode
import ToolTrial.Worklist

/-!
Worklists as documents.
-/

set_option autoImplicit false
set_option relaxedAutoImplicit false

namespace ToolTrial

open Json (Decoder DecodeError Member Record)

namespace Cell

def toJson (c : Cell) : Json :=
  .object [("task_id", .text c.taskId), ("condition_id", .text c.conditionId),
    ("target_runs", Json.ofNat c.targetRuns), ("observed_runs", Json.ofNat c.observedRuns),
    ("missing_runs", Json.ofNat c.missingRuns),
    ("used_replicates", .array (c.usedReplicates.map .integer))]

def members : List Member :=
  [.of "task_id" Decoder.text, .of "condition_id" Decoder.text, .of "target_runs" Decoder.count,
   .of "observed_runs" Decoder.count, .of "missing_runs" Decoder.count,
   .of "used_replicates" (Decoder.list Decoder.signed)]

def decode : Decoder Cell := fun j => do
  let r ← Record.read "WorklistCell" members j
  return {
    taskId := ← r.required "task_id" Decoder.text
    conditionId := ← r.required "condition_id" Decoder.text
    targetRuns := ← r.required "target_runs" Decoder.count
    observedRuns := ← r.required "observed_runs" Decoder.count
    missingRuns := ← r.required "missing_runs" Decoder.count
    usedReplicates := ← r.required "used_replicates" (Decoder.list Decoder.signed) }

end Cell

namespace PendingRun

def toJson (p : PendingRun) : Json :=
  .object [("run_id", .text p.runId), ("task_id", .text p.taskId),
    ("condition_id", .text p.conditionId), ("replicate", .integer p.replicate)]

def members : List Member :=
  [.of "run_id" Decoder.text, .of "task_id" Decoder.text, .of "condition_id" Decoder.text,
   .of "replicate" Decoder.signed]

def decode : Decoder PendingRun := fun j => do
  let r ← Record.read "PendingRun" members j
  return {
    runId := ← r.required "run_id" Decoder.text
    taskId := ← r.required "task_id" Decoder.text
    conditionId := ← r.required "condition_id" Decoder.text
    replicate := ← r.required "replicate" Decoder.signed }

end PendingRun

namespace Worklist

def toMembers (w : Worklist) : List (String × Json) :=
  [("expected_runs", Json.ofNat w.expectedRuns), ("observed_runs", Json.ofNat w.observedRuns),
   ("completion_rate", Json.ofFloat w.completionRate),
   ("cells", .array (w.cells.map Cell.toJson)),
   ("pending_runs", .array (w.pendingRuns.map PendingRun.toJson))]

def toJson (w : Worklist) : Json := .object w.toMembers

def members : List Member :=
  [.of "expected_runs" Decoder.count, .of "observed_runs" Decoder.count,
   .of "completion_rate" Decoder.float, .of "cells" (Decoder.list Cell.decode),
   .of "pending_runs" (Decoder.list PendingRun.decode)]

def ofMembers (given : List (String × Json)) : Except DecodeError Worklist := do
  let r ← Record.ofObject "Worklist" members given
  return {
    expectedRuns := ← r.required "expected_runs" Decoder.count
    observedRuns := ← r.required "observed_runs" Decoder.count
    completionRate := ← r.required "completion_rate" Decoder.float
    cells := ← r.required "cells" (Decoder.list Cell.decode)
    pendingRuns := ← r.required "pending_runs" (Decoder.list PendingRun.decode) }

end Worklist
end ToolTrial
