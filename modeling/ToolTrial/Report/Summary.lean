import ToolTrial.Report.Basic

/-!
The summary of an evaluation, in Markdown: the arms and the tasks in a table each, the primary
comparison, and the most serious issues of the runs.
-/

set_option autoImplicit false
set_option relaxedAutoImplicit false

namespace ToolTrial.Summary

/-- A share in percent with one place, or a mark for none. -/
def percent : Option Float → String
  | some x => Number.fixed 1 (x * 100.0) ++ "%"
  | none => "n/a"

def number : Option Float → String
  | some x => Number.fixed 2 x
  | none => "n/a"

/-- A character inside a table cell: a bar is escaped, and a line break is a blank. -/
def cellChar (c : Char) : List Char :=
  if c = '|' then ['\\', '|'] else if c = '\r' ∨ c = '\n' then [' '] else [c]

def cell (s : String) : String := String.ofList (s.toList.flatMap cellChar)

def row (cells : List String) : String := "| " ++ Text.join " | " cells ++ " |\n"

def code (s : String) : String := "\x60" ++ s ++ "\x60"

/-- The identifier of an arm, or a word for none. -/
def armName (id : Option String) : String :=
  match id with
  | some s => if s.isEmpty then "none" else s
  | none => "none"

def header (score : ScoreReport) (runs : RunValidation) : String :=
  "# Evaluation summary: " ++ score.experimentId ++ "\n\n" ++
    "- Generated: " ++ score.generatedAt ++ "\n" ++
    "- Manifest SHA-256: " ++ code score.manifestSha256 ++ "\n" ++
    "- Total runs: " ++ toString score.totalRuns ++ "\n" ++
    "- Sufficient data: " ++ (if score.sufficientData then "yes" else "no") ++ "\n" ++
    "- Run validation: " ++ (if runs.valid then "valid" else "invalid") ++ " (" ++
    toString runs.errorCount ++ " error(s), " ++ toString runs.warningCount ++ " warning(s))\n\n"

def conditionCells (s : ConditionSummary) : List String :=
  [cell s.conditionId, if s.toolsEnabled then "on" else "off", toString s.runCount,
    percent s.successRate, percent s.compileRate, percent s.testsRate, percent s.toolUsedRate,
    percent s.toolCallShare, number s.averageHelpfulness, number s.averageTotalTokens]

def conditions (summaries : List ConditionSummary) : String :=
  "## Conditions\n\n" ++
    row ["Condition", "Tools", "Runs", "Success", "Compile", "Tests", "Tool used",
      "Tool call share", "Helpfulness", "Avg tokens"] ++
    "|---|---|---:|---:|---:|---:|---:|---:|---:|---:|\n" ++
    String.join (summaries.map fun s => row (conditionCells s)) ++ "\n"

/-- The lines of a comparison's outcome, without a line break at the end. -/
def outcome : Outcome → String
  | .computed d =>
    Text.join "\n"
      ["- Success rate delta: " ++ percent d.successRate,
       "- Compile rate delta: " ++ percent d.compileRate,
       "- Tests rate delta: " ++ percent d.testsRate,
       "- Treatment tool usage: " ++ percent d.toolUsedRate,
       "- Treatment tool call share: " ++ percent d.toolCallShare,
       "- Treatment helpfulness: " ++ number d.helpfulness,
       "- Total tokens delta: " ++ number d.totalTokens,
       "- Total tokens ratio: " ++ number d.totalTokensRatio]
  | .insufficient data => "Insufficient data: " ++ data.note

def primary (c : Comparison) : String :=
  "## Primary comparison\n\n" ++
    "Control " ++ code (armName c.controlId) ++ " (" ++ toString c.controlRuns ++
    " run(s)) vs treatment " ++ code (armName c.treatmentId) ++ " (" ++
    toString c.treatmentRuns ++ " run(s)).\n\n" ++ outcome c.outcome ++ "\n\n"

/-- The difference in success and the treatment's use of tools, as far as an outcome has them. -/
def taskNumbers : Outcome → Option Float × Option Float
  | .computed d => (some d.successRate, some d.toolUsedRate)
  | .insufficient data => (none, data.treatmentToolUsedRate)

def taskCells (t : TaskComparison) : List String :=
  let (success, used) := taskNumbers t.comparison.outcome
  [cell t.taskId, toString t.comparison.controlRuns, toString t.comparison.treatmentRuns,
    percent success, percent used, t.comparison.outcome.status.name]

def tasks (comparisons : List TaskComparison) : String :=
  "## Tasks\n\n" ++
    row ["Task", "Control runs", "Treatment runs", "Success delta", "Tool usage", "Status"] ++
    "|---|---:|---:|---:|---:|---|\n" ++
    String.join (comparisons.map fun t => row (taskCells t)) ++ "\n"

def issueLine (i : Issue) : String :=
  "- **" ++ i.severity.name ++ "** [" ++ i.scope.name ++ " " ++ code i.id ++ "] " ++ i.message ++
    "\n"

def issues (all : List Issue) (limit : Nat) : String :=
  let shown := Issue.top limit all
  let omitted := all.length - shown.length
  "## Validation issues\n\n" ++
    if shown.isEmpty then "None.\n"
    else
      String.join (shown.map issueLine) ++
        if 0 < omitted then "- ... " ++ toString omitted ++ " more\n" else ""

/-- The summary of a score report and a report on the same runs, with at most `limit` issues. -/
def render (score : ScoreReport) (runs : RunReport) (limit : Nat) : String :=
  header score runs.validation ++ conditions score.summaries ++ primary score.primary ++
    tasks score.byTask ++ issues runs.validation.issues limit

end ToolTrial.Summary
