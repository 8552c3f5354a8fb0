import ToolTrial.Loading
import ToolTrial.Proofs.Identifier
import ToolTrial.Proofs.Issue

/-!
What the checks of a manifest mean.  A manifest is loadable when it lists no invariant fault; it is
complete when, besides, its report lists no error.
-/

set_option autoImplicit false
set_option relaxedAutoImplicit false

namespace ToolTrial

/-- A manifest that every stage can work with. -/
structure Manifest.Loadable (m : Manifest) : Prop where
  experimentNamed : Text.allBlank m.experimentId = false
  hasConditions : m.conditions ≠ []
  hasTasks : m.tasks ≠ []
  wantsRuns : 0 < m.runsPerCell
  hasStart : ∃ start ∈ m.toolNameStarts, Text.allBlank start = false
  distinctConditions : (m.conditions.map fun c => Identifier.key c.id).Nodup
  distinctTasks : (m.tasks.map fun t => Identifier.key t.id).Nodup
  safeConditions : ∀ c ∈ m.conditions, Identifier.fileSafe c.id = true
  safeTasks : ∀ t ∈ m.tasks, Identifier.fileSafe t.id = true

/-- A task with a name, a commit of a repository, something to check, and the prompt file that it
mentions, which is looked for from a directory. -/
structure Task.Complete (base : Path) (exist : Path → Bool) (t : Task) : Prop where
  named : Text.allBlank t.id = false
  hasRepo : Text.allBlank t.repo = false
  hasCommit : Text.allBlank t.commit = false
  hasCheck : ∃ check ∈ t.acceptanceChecks, Text.allBlank check = false
  hasPrompt : ∀ file, t.promptFile = some file → exist (base.join file) = true

/-- A manifest with arms of both kinds, no nameless arm, and complete tasks only. -/
structure Manifest.Complete (base : Path) (exist : Path → Bool) (m : Manifest) : Prop where
  hasControl : ∃ c ∈ m.conditions, c.toolsEnabled = false
  hasTreatment : ∃ c ∈ m.conditions, c.toolsEnabled = true
  conditionsNamed : ∀ c ∈ m.conditions, Text.allBlank c.id = false
  tasksComplete : ∀ t ∈ m.tasks, t.Complete base exist

namespace Manifest

variable (m : Manifest)

@[simp]
private theorem when_eq_nil_iff (present : Bool) (fault : Fault) :
    when present fault = [] ↔ present = false := by
  cases present <;> simp [when]

private theorem idFaults_eq_nil_iff (kind : Kind) (ids : List String) :
    idFaults kind ids = [] ↔
      (ids.map Identifier.key).Nodup ∧ ∀ id ∈ ids, Identifier.fileSafe id = true := by
  simp [idFaults, Identifier.repeated_eq_nil_iff]

private theorem allStartsBlank_eq_false_iff :
    m.allStartsBlank = false ↔ ∃ start ∈ m.toolNameStarts, Text.allBlank start = false := by
  simp [allStartsBlank]

theorem checkInvariants_eq_ok_iff : m.checkInvariants = .ok () ↔ m.Loadable := by
  have noFaults : m.checkInvariants = .ok () ↔ m.invariantFaults = [] := by
    unfold checkInvariants
    cases m.invariantFaults <;> simp
  rw [noFaults]
  simp only [invariantFaults, List.append_eq_nil_iff, when_eq_nil_iff, idFaults_eq_nil_iff,
    allStartsBlank_eq_false_iff, List.isEmpty_eq_false_iff, beq_eq_false_iff_ne, List.map_map,
    List.forall_mem_map, and_assoc]
  constructor
  · rintro ⟨named, conditions, tasks, runs, start, distinctC, safeC, distinctT, safeT⟩
    exact ⟨named, conditions, tasks, Nat.pos_of_ne_zero runs, start, distinctC, distinctT, safeC,
      safeT⟩
  · rintro ⟨named, conditions, tasks, runs, start, distinctC, distinctT, safeC, safeT⟩
    exact ⟨named, conditions, tasks, Nat.ne_of_gt runs, start, distinctC, safeC, distinctT, safeT⟩

@[simp]
private theorem errorCount_experimentError_eq_zero (present : Bool) (message : String) :
    Issue.errorCount (experimentError present message) = 0 ↔ present = false := by
  cases present <;> simp [experimentError]

theorem errorCount_experimentIssues :
    Issue.errorCount m.experimentIssues = 0 ↔ Text.allBlank m.experimentId = false ∧
      0 < m.runsPerCell ∧ (∃ start ∈ m.toolNameStarts, Text.allBlank start = false) ∧
      (∃ c ∈ m.conditions, c.toolsEnabled = false) ∧ (∃ c ∈ m.conditions, c.toolsEnabled = true) ∧
      m.tasks ≠ [] := by
  simp only [experimentIssues, Issue.errorCount_append, Nat.add_eq_zero_iff,
    errorCount_experimentError_eq_zero, allStartsBlank_eq_false_iff, and_assoc]
  simp [primaryControl?, primaryTreatment?, Nat.pos_iff_ne_zero]

theorem errorCount_conditionIssues (seen : List String) (conditions : List Condition) :
    Issue.errorCount (conditionIssues seen conditions) = 0 ↔
      (∀ c ∈ conditions, Text.allBlank c.id = false) ∧
      (conditions.map fun c => Identifier.key c.id).Nodup ∧
      ∀ key ∈ conditions.map fun c => Identifier.key c.id, key ∉ seen := by
  induction conditions generalizing seen with
  | nil => simp [conditionIssues]
  | cons c rest ih =>
    cases blank : Text.allBlank c.id with
    | true => simp [conditionIssues, blank]
    | false =>
      rw [List.map_cons, Identifier.nodup_unseen_cons_iff]
      simp [conditionIssues, blank, ih, and_left_comm]

private theorem errorCount_missingPrompt (prompt : Option Path) (exist : Path → Bool) (id : String)
    (message : Path → String) :
    Issue.errorCount (match prompt with
      | some p => if (!exist p) = true then [.error .task id (message p)] else []
      | none => []) = 0 ↔ ∀ p, prompt = some p → exist p = true := by
  cases prompt <;> simp

private theorem errorCount_taskIssues (base : Path) (exist : Path → Bool) (t : Task)
    (named : Text.allBlank t.id = false) :
    Issue.errorCount (taskIssues base exist t) = 0 ↔ t.Complete base exist := by
  have prompt : (∀ file, t.promptFile = some file → exist (base.join file) = true) ↔
      ∀ p, promptPath? base t = some p → exist p = true := by
    simp [promptPath?]
  simp only [taskIssues, Issue.errorCount_append, Nat.add_eq_zero_iff, true_and,
    Issue.errorCount_ite_warning, Issue.errorCount_ite_error_eq_zero]
  have found := errorCount_missingPrompt (promptPath? base t) exist t.id fun p =>
    "task " ++ Text.quoted t.id ++ (" prompt file not found: " ++ p.text)
  constructor
  · rintro ⟨⟨⟨repo, commit⟩, checks⟩, noFault⟩
    exact ⟨named, by simpa using repo, by simpa using commit, by simpa using checks,
      prompt.mpr (found.mp noFault)⟩
  · rintro ⟨-, repo, commit, checks, there⟩
    exact ⟨⟨⟨by simpa using repo, by simpa using commit⟩, by simpa using checks⟩,
      found.mpr (prompt.mp there)⟩

theorem errorCount_tasksIssues (base : Path) (exist : Path → Bool) (seen : List String)
    (tasks : List Task) : Issue.errorCount (tasksIssues base exist seen tasks) = 0 ↔
      (∀ t ∈ tasks, t.Complete base exist) ∧
      (tasks.map fun t => Identifier.key t.id).Nodup ∧
      ∀ key ∈ tasks.map fun t => Identifier.key t.id, key ∉ seen := by
  induction tasks generalizing seen with
  | nil => simp [tasksIssues]
  | cons t rest ih =>
    cases blank : Text.allBlank t.id with
    | true =>
      have incomplete : ¬ t.Complete base exist := by
        rintro ⟨named, -⟩
        simp [blank] at named
      simp [tasksIssues, blank, incomplete]
    | false =>
      rw [List.map_cons, Identifier.nodup_unseen_cons_iff]
      simp only [tasksIssues, blank, Issue.errorCount_append, Nat.add_eq_zero_iff, ih,
        errorCount_taskIssues base exist t blank, Issue.errorCount_ite_error_eq_zero,
        List.forall_mem_cons, List.contains_iff_mem, Bool.false_eq_true, if_false]
      tauto

/-- The report on a loadable manifest lists no error exactly when the manifest is complete. -/
theorem errorCount_issues_eq_zero_iff (base : Path) (exist : Path → Bool)
    (loadable : m.Loadable) :
    Issue.errorCount (m.issues base exist) = 0 ↔ m.Complete base exist := by
  simp only [issues, Issue.errorCount_append, Nat.add_eq_zero_iff, errorCount_experimentIssues,
    errorCount_conditionIssues, errorCount_tasksIssues]
  constructor
  · rintro ⟨⟨⟨-, -, -, control, treatment, -⟩, named, -⟩, complete, -⟩
    exact ⟨control, treatment, named, complete⟩
  · rintro ⟨control, treatment, named, complete⟩
    exact ⟨⟨⟨loadable.experimentNamed, loadable.wantsRuns, loadable.hasStart, control, treatment,
      loadable.hasTasks⟩, named, loadable.distinctConditions, by simp⟩, complete,
      loadable.distinctTasks, by simp⟩

/-- The completeness of a manifest hangs on the existence of its prompt files only. -/
theorem complete_congr (base : Path) {exist exist' : Path → Bool}
    (agree : ∀ p ∈ m.promptPaths base, exist p = exist' p) :
    m.Complete base exist ↔ m.Complete base exist' := by
  have tasks (t : Task) (member : t ∈ m.tasks) :
      t.Complete base exist ↔ t.Complete base exist' := by
    have prompt (file : Path) (mentioned : t.promptFile = some file) :
        exist (base.join file) = exist' (base.join file) :=
      agree _ (List.mem_filterMap.mpr ⟨t, member, by simp [promptPath?, mentioned]⟩)
    constructor
    · rintro ⟨named, repo, commit, checks, found⟩
      exact ⟨named, repo, commit, checks, fun file mentioned =>
        (prompt file mentioned).symm.trans (found file mentioned)⟩
    · rintro ⟨named, repo, commit, checks, found⟩
      exact ⟨named, repo, commit, checks, fun file mentioned =>
        (prompt file mentioned).trans (found file mentioned)⟩
  constructor
  · rintro ⟨control, treatment, named, complete⟩
    exact ⟨control, treatment, named, fun t member => (tasks t member).mp (complete t member)⟩
  · rintro ⟨control, treatment, named, complete⟩
    exact ⟨control, treatment, named, fun t member => (tasks t member).mpr (complete t member)⟩

theorem isSome_condition?_iff (m : Manifest) (id : String) :
    (m.condition? id).isSome = true ↔ ∃ c ∈ m.conditions, Identifier.same c.id id = true := by
  simp [condition?]

theorem isSome_task?_iff (m : Manifest) (id : String) :
    (m.task? id).isSome = true ↔ ∃ t ∈ m.tasks, Identifier.same t.id id = true := by
  simp [task?]

/-- An experiment with one task, an arm of each kind, and two runs to a cell. -/
def pair : Manifest where
  experimentId := "pair"
  description := ""
  toolNameStarts := defaultToolNameStarts
  conditions := [⟨"plain", "", false, none⟩, ⟨"tools", "", true, none⟩]
  tasks := [⟨"fix", "Fix", "repo", "abc", ["make"], none, none⟩]
  runsPerCell := 2

theorem loadable_pair : pair.Loadable :=
  (checkInvariants_eq_ok_iff pair).mp (by decide +kernel)

end Manifest

def Run.ofPair (id condition : String) (replicate : Option Int) (calls : List ToolCall) : Run where
  runId := id
  taskId := "fix"
  conditionId := condition
  replicate := replicate
  agent := ""
  model := ""
  succeeded := true
  compilePassed := true
  testsPassed := true
  durationSeconds := 1.0
  toolsOffered := ["roslyn_find"]
  toolCalls := calls
  tokenUsage := none
  reflection := none

end ToolTrial
