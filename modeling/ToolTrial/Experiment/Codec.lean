import ToolTrial.Experiment.Manifest
import ToolTrial.Experiment.Run
import ToolTrial.Json.Decode

/-!
Manifests and runs as documents.  Encoding writes the members in the order of declaration and leaves
out notes, prompt files, addresses, token counts and reflections that are absent; decoding accepts
documents that leave out what has a default.
-/

set_option autoImplicit false
set_option relaxedAutoImplicit false

namespace ToolTrial

open Json (Decoder DecodeError Member Record)

def Path.decode : Decoder Path
  | .text s => .ok ⟨s⟩
  | j => .error (.wrongType j "path string")

def Path.toJson (p : Path) : Json := .text p.text

namespace Condition

def toJson (c : Condition) : Json :=
  .object ([("id", .text c.id), ("name", .text c.name), ("tools_enabled", .bool c.toolsEnabled)] ++
    Json.optionalMember "notes" .text c.notes)

def members : List Member :=
  [.of "id" Decoder.text, .of "name" Decoder.text, .of "tools_enabled" Decoder.boolean,
   .of "notes" (Decoder.optional Decoder.text)]

def decode : Decoder Condition := fun j => do
  let r ← Record.read "Condition" members j
  return {
    id := ← r.required "id" Decoder.text
    name := ← r.orDefault "name" "" Decoder.text
    toolsEnabled := ← r.required "tools_enabled" Decoder.boolean
    notes := ← r.omissible "notes" Decoder.text }

end Condition

namespace Task

def toJson (t : Task) : Json :=
  .object ([("id", .text t.id), ("title", .text t.title), ("repo", .text t.repo),
      ("commit", .text t.commit), ("acceptance_checks", Json.ofTexts t.acceptanceChecks)] ++
    Json.optionalMember "prompt_file" Path.toJson t.promptFile ++
    Json.optionalMember "repo_url" .text t.repoUrl)

def members : List Member :=
  [.of "id" Decoder.text, .of "title" Decoder.text, .of "repo" Decoder.text,
   .of "commit" Decoder.text, .of "acceptance_checks" (Decoder.list Decoder.text),
   .of "prompt_file" (Decoder.optional Path.decode), .of "repo_url" (Decoder.optional Decoder.text)]

def decode : Decoder Task := fun j => do
  let r ← Record.read "Task" members j
  return {
    id := ← r.required "id" Decoder.text
    title := ← r.orDefault "title" "" Decoder.text
    repo := ← r.required "repo" Decoder.text
    commit := ← r.required "commit" Decoder.text
    acceptanceChecks := ← r.orDefault "acceptance_checks" [] (Decoder.list Decoder.text)
    promptFile := ← r.omissible "prompt_file" Path.decode
    repoUrl := ← r.omissible "repo_url" Decoder.text }

end Task

namespace Manifest

def toJson (m : Manifest) : Json :=
  .object [("experiment_id", .text m.experimentId), ("description", .text m.description),
    ("tool_prefixes", Json.ofTexts m.toolNameStarts),
    ("conditions", .array (m.conditions.map Condition.toJson)),
    ("tasks", .array (m.tasks.map Task.toJson)), ("runs_per_cell", Json.ofNat m.runsPerCell)]

def members : List Member :=
  [.of "experiment_id" Decoder.text, .of "description" Decoder.text,
   .of "tool_prefixes" (Decoder.list Decoder.text),
   .of "conditions" (Decoder.list Condition.decode), .of "tasks" (Decoder.list Task.decode),
   .of "runs_per_cell" Decoder.smallCount]

def decode : Decoder Manifest := fun j => do
  let r ← Record.read "ExperimentManifest" members j
  return {
    experimentId := ← r.required "experiment_id" Decoder.text
    description := ← r.orDefault "description" "" Decoder.text
    toolNameStarts :=
      ← r.orDefault "tool_prefixes" defaultToolNameStarts (Decoder.list Decoder.text)
    conditions := ← r.required "conditions" (Decoder.list Condition.decode)
    tasks := ← r.required "tasks" (Decoder.list Task.decode)
    runsPerCell := ← r.required "runs_per_cell" Decoder.smallCount }

end Manifest

namespace ToolCall

def toJson (c : ToolCall) : Json :=
  .object [("tool_name", .text c.toolName), ("ok", .bool c.ok)]

def members : List Member :=
  [.of "tool_name" Decoder.text, .of "ok" Decoder.boolean]

def decode : Decoder ToolCall := fun j => do
  let r ← Record.read "ToolCall" members j
  return {
    toolName := ← r.required "tool_name" Decoder.text
    ok := ← r.required "ok" Decoder.boolean }

end ToolCall

namespace TokenUsage

def toJson (u : TokenUsage) : Json :=
  .object (Json.optionalMember "input_tokens" Json.ofNat u.input ++
    Json.optionalMember "output_tokens" Json.ofNat u.output ++
    Json.optionalMember "total_tokens" Json.ofNat u.total)

def members : List Member :=
  [.of "input_tokens" (Decoder.optional Decoder.largeCount),
   .of "output_tokens" (Decoder.optional Decoder.largeCount),
   .of "total_tokens" (Decoder.optional Decoder.largeCount)]

def decode : Decoder TokenUsage := fun j => do
  let r ← Record.read "TokenUsage" members j
  return {
    input := ← r.omissible "input_tokens" Decoder.largeCount
    output := ← r.omissible "output_tokens" Decoder.largeCount
    total := ← r.omissible "total_tokens" Decoder.largeCount }

end TokenUsage

namespace Reflection

def toJson (f : Reflection) : Json :=
  .object [("summary", .text f.summary), ("helpful_tools", Json.ofTexts f.helpfulTools),
    ("unhelpful_tools", Json.ofTexts f.unhelpfulTools),
    ("roslyn_helpfulness_score", Json.ofOption .integer f.helpfulness)]

/-- The score goes by two names, of which a document may use one. -/
def members : List Member :=
  [.of "summary" Decoder.text, .of "helpful_tools" (Decoder.list Decoder.text),
   .of "unhelpful_tools" (Decoder.list Decoder.text),
   (Member.of "roslyn_helpfulness_score" (Decoder.optional Decoder.signed)).orNamed
     "helpfulness_score"]

def decode : Decoder Reflection := fun j => do
  let r ← Record.read "PostRunReflection" members j
  return {
    summary := ← r.orDefault "summary" "" Decoder.text
    helpfulTools := ← r.orDefault "helpful_tools" [] (Decoder.list Decoder.text)
    unhelpfulTools := ← r.orDefault "unhelpful_tools" [] (Decoder.list Decoder.text)
    helpfulness := ← r.omissible "roslyn_helpfulness_score" Decoder.signed }

end Reflection

namespace Run

def toJson (r : Run) : Json :=
  .object ([("run_id", .text r.runId), ("task_id", .text r.taskId),
      ("condition_id", .text r.conditionId), ("replicate", Json.ofOption .integer r.replicate),
      ("agent", .text r.agent), ("model", .text r.model), ("succeeded", .bool r.succeeded),
      ("compile_passed", .bool r.compilePassed), ("tests_passed", .bool r.testsPassed),
      ("duration_seconds", Json.ofFloat r.durationSeconds),
      ("tools_offered", Json.ofTexts r.toolsOffered),
      ("tool_calls", .array (r.toolCalls.map ToolCall.toJson))] ++
    Json.optionalMember "token_usage" TokenUsage.toJson r.tokenUsage ++
    Json.optionalMember "post_run_reflection" Reflection.toJson r.reflection)

def members : List Member :=
  [.of "run_id" Decoder.text, .of "task_id" Decoder.text, .of "condition_id" Decoder.text,
   .of "replicate" (Decoder.optional Decoder.signed), .of "agent" Decoder.text,
   .of "model" Decoder.text, .of "succeeded" Decoder.boolean,
   .of "compile_passed" Decoder.boolean, .of "tests_passed" Decoder.boolean,
   .of "duration_seconds" Decoder.float, .of "tools_offered" (Decoder.list Decoder.text),
   .of "tool_calls" (Decoder.list ToolCall.decode),
   .of "token_usage" (Decoder.optional TokenUsage.decode),
   .of "post_run_reflection" (Decoder.optional Reflection.decode)]

def decode : Decoder Run := fun j => do
  let r ← Record.read "RunRecord" members j
  return {
    runId := ← r.required "run_id" Decoder.text
    taskId := ← r.required "task_id" Decoder.text
    conditionId := ← r.required "condition_id" Decoder.text
    replicate := ← r.omissible "replicate" Decoder.signed
    agent := ← r.orDefault "agent" "" Decoder.text
    model := ← r.orDefault "model" "" Decoder.text
    succeeded := ← r.required "succeeded" Decoder.boolean
    compilePassed := ← r.required "compile_passed" Decoder.boolean
    testsPassed := ← r.required "tests_passed" Decoder.boolean
    durationSeconds := ← r.required "duration_seconds" Decoder.float
    toolsOffered := ← r.orDefault "tools_offered" [] (Decoder.list Decoder.text)
    toolCalls := ← r.orDefault "tool_calls" [] (Decoder.list ToolCall.decode)
    tokenUsage := ← r.omissible "token_usage" TokenUsage.decode
    reflection := ← r.omissible "post_run_reflection" Reflection.decode }

end Run
end ToolTrial
