import ToolTrial.Schema.Basic

/-!
The schemas of manifests and of runs.
-/

set_option autoImplicit false
set_option relaxedAutoImplicit false

namespace ToolTrial.Schema

def just (kind : Kind) : Schema := .ofKind [kind] .anything

def orNull (kind : Kind) : Schema := .ofKind [kind, .null] .anything

def listOf (schema : Schema) : Schema := .ofKind [.array] (.items schema .anything)

def withMembers (members : List (String × Schema)) : Schema :=
  members.foldr (fun m rest => .member m.1 m.2 rest) .anything

/-- An object that has some members and whose members keep to their schemas. -/
def record (needed : List String) (members : List (String × Schema)) : Schema :=
  .ofKind [.object] (.hasMembers needed (withMembers members))

def condition : Schema :=
  record ["id", "tools_enabled"]
    [("id", just .string), ("name", just .string), ("tools_enabled", just .boolean),
     ("notes", .ofKind [.null, .string] .anything)]

def task : Schema :=
  record ["id", "repo", "commit"]
    [("id", just .string), ("title", just .string), ("repo", just .string),
     ("commit", just .string), ("acceptance_checks", listOf (just .string)),
     ("prompt_file", .ofKind [.null, .string] .anything),
     ("repo_url", .ofKind [.null, .string] .anything)]

def manifest : Schema :=
  record ["experiment_id", "conditions", "tasks", "runs_per_cell"]
    [("experiment_id", just .string), ("description", just .string),
     ("tool_prefixes", listOf (just .string)), ("conditions", listOf condition),
     ("tasks", listOf task), ("runs_per_cell", just .integer)]

def tokenCount : Schema := .ofKind [.integer, .null] (.atLeast 0 .anything)

def run : Schema :=
  record
    ["run_id", "task_id", "condition_id", "succeeded", "compile_passed", "tests_passed",
     "duration_seconds"]
    [("run_id", just .string), ("task_id", just .string), ("condition_id", just .string),
     ("replicate", orNull .integer), ("agent", just .string), ("model", just .string),
     ("succeeded", just .boolean), ("compile_passed", just .boolean),
     ("tests_passed", just .boolean), ("duration_seconds", just .number),
     ("tools_offered", listOf (just .string)),
     ("tool_calls",
       listOf (record ["tool_name", "ok"] [("tool_name", just .string), ("ok", just .boolean)])),
     ("token_usage", .ofKind [.null, .object] (withMembers
       [("input_tokens", tokenCount), ("output_tokens", tokenCount),
        ("total_tokens", tokenCount)])),
     ("post_run_reflection", .ofKind [.null, .object] (withMembers
       [("summary", just .string), ("helpful_tools", listOf (just .string)),
        ("unhelpful_tools", listOf (just .string)),
        ("roslyn_helpfulness_score", orNull .integer), ("helpfulness_score", orNull .integer)]))]

end ToolTrial.Schema
