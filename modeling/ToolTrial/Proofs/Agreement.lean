import ToolTrial.Proofs.Manifest

/-!
The two checks of a manifest.  Loading looks for what makes a manifest useless, the report for what
an experiment lacks, and several rules stand in both.  A report without errors is that of a complete
manifest which loading accepts if its identifiers name files; an accepted manifest is reported for
nothing but omissions.  Loading compares blank identifiers too and the report passes over them, but
it calls a blank identifier an error of its own.
-/

set_option autoImplicit false
set_option relaxedAutoImplicit false

namespace ToolTrial

namespace Identifier

/-- Members of a list at two places that are spellings of one identifier. -/
def Recurs (ids : List String) : Prop :=
  ∃ (i j : Nat) (a b : String), i < j ∧ ids[i]? = some a ∧ ids[j]? = some b ∧ same a b = true

theorem recurs_iff (ids : List String) : Recurs ids ↔ ¬ (ids.map key).Nodup := by
  rw [List.nodup_iff_getElem?_ne_getElem?]
  constructor
  · rintro ⟨i, j, a, b, before, first, second, equal⟩ distinct
    have bound : j < (ids.map key).length := by
      rw [List.length_map]
      exact (List.getElem?_eq_some_iff.mp second).1
    apply distinct i j before bound
    rw [List.getElem?_map, List.getElem?_map, first, second, Option.map_some, Option.map_some,
      (same_iff_key_eq a b).mp equal]
  · intro repeated
    push Not at repeated
    obtain ⟨i, j, before, bound, equal⟩ := repeated
    rw [List.length_map] at bound
    have first : ids[i]? = some ids[i] := List.getElem?_eq_getElem (Nat.lt_trans before bound)
    have second : ids[j]? = some ids[j] := List.getElem?_eq_getElem bound
    rw [List.getElem?_map, List.getElem?_map, first, second, Option.map_some, Option.map_some,
      Option.some_inj] at equal
    exact ⟨i, j, _, _, before, first, second, (same_iff_key_eq _ _).mpr equal⟩

end Identifier

namespace Manifest

/-- A manifest that can be loaded if its identifiers name files. -/
structure Consistent (m : Manifest) : Prop where
  experimentNamed : Text.allBlank m.experimentId = false
  hasConditions : m.conditions ≠ []
  hasTasks : m.tasks ≠ []
  wantsRuns : 0 < m.runsPerCell
  hasStart : ∃ start ∈ m.toolNameStarts, Text.allBlank start = false
  distinctConditions : (m.conditions.map fun c => Identifier.key c.id).Nodup
  distinctTasks : (m.tasks.map fun t => Identifier.key t.id).Nodup

/-- Errors about what an experiment lacks, each where it does. -/
inductive Omission (m : Manifest) (base : Path) (exist : Path → Bool) : Issue → Prop
  | control (only : ∀ c ∈ m.conditions, c.toolsEnabled = true) :
    Omission m base exist (.error .experiment Identifier.unattributed
      "no control condition (tools_enabled=false) declared")
  | treatment (only : ∀ c ∈ m.conditions, c.toolsEnabled = false) :
    Omission m base exist (.error .experiment Identifier.unattributed
      "no treatment condition (tools_enabled=true) declared")
  | conditionId (c : Condition) (declared : c ∈ m.conditions) (blank : Text.allBlank c.id = true) :
    Omission m base exist (.error .condition Identifier.unattributed
      "condition id must be non-empty")
  | taskId (t : Task) (declared : t ∈ m.tasks) (blank : Text.allBlank t.id = true) :
    Omission m base exist (.error .task Identifier.unattributed "task id must be non-empty")
  | repo (t : Task) (declared : t ∈ m.tasks) (blank : Text.allBlank t.repo = true) :
    Omission m base exist (.error .task t.id ("task " ++ Text.quoted t.id ++ " is missing repo"))
  | commit (t : Task) (declared : t ∈ m.tasks) (blank : Text.allBlank t.commit = true) :
    Omission m base exist (.error .task t.id ("task " ++ Text.quoted t.id ++ " is missing commit"))
  | checks (t : Task) (declared : t ∈ m.tasks)
      (blank : ∀ check ∈ t.acceptanceChecks, Text.allBlank check = true) :
    Omission m base exist
      (.error .task t.id ("task " ++ Text.quoted t.id ++ " has no acceptance checks"))
  | prompt (t : Task) (declared : t ∈ m.tasks) (file : Path) (mentioned : t.promptFile = some file)
      (missing : exist (base.join file) = false) :
    Omission m base exist (.error .task t.id ("task " ++ Text.quoted t.id ++
      (" prompt file not found: " ++ (base.join file).text)))

/-- Errors that repeat a reason not to load a manifest. -/
inductive Obstacle : Issue → Prop
  | experimentId : Obstacle (.error .experiment Identifier.unattributed
      "experiment_id must be non-empty")
  | runsPerCell : Obstacle (.error .experiment Identifier.unattributed "runs_per_cell must be > 0")
  | toolNameStarts : Obstacle (.error .experiment Identifier.unattributed
      "tool_prefixes must contain at least one non-empty prefix")
  | tasks : Obstacle (.error .experiment Identifier.unattributed "at least one task is required")
  | conditionTwice (id : String) :
    Obstacle (.error .condition id ("duplicate condition id " ++ Text.quoted id))
  | taskTwice (id : String) : Obstacle (.error .task id ("duplicate task id " ++ Text.quoted id))

/-- What loading says about a manifest and what its report says fit together. -/
structure ChecksAgree (m : Manifest) (base : Path) (exist : Path → Bool) : Prop where
  /-- A manifest without errors is loaded if its identifiers name files. -/
  ofNoError : (∀ issue ∈ m.issues base exist, issue.isError = false) →
    (m.checkInvariants = .ok () ↔ (∀ c ∈ m.conditions, Identifier.fileSafe c.id = true) ∧
      ∀ t ∈ m.tasks, Identifier.fileSafe t.id = true)
  /-- A manifest that is loaded has no errors but omissions. -/
  ofLoaded : m.checkInvariants = .ok () → ∀ issue ∈ m.issues base exist, issue.isError = true →
    Omission m base exist issue ∧ ¬ Obstacle issue
  /-- What keeps a manifest from being loaded. -/
  fails_iff : (∃ failure, m.checkInvariants = .error failure) ↔
    Text.allBlank m.experimentId = true ∨ m.conditions = [] ∨ m.tasks = [] ∨ m.runsPerCell = 0 ∨
    (∀ start ∈ m.toolNameStarts, Text.allBlank start = true) ∨
    Identifier.Recurs (m.conditions.map (·.id)) ∨ Identifier.Recurs (m.tasks.map (·.id)) ∨
    (∃ c ∈ m.conditions, Identifier.fileSafe c.id = false) ∨
    ∃ t ∈ m.tasks, Identifier.fileSafe t.id = false

variable {m : Manifest}

theorem loadable_iff : m.Loadable ↔ m.Consistent ∧
    (∀ c ∈ m.conditions, Identifier.fileSafe c.id = true) ∧
    ∀ t ∈ m.tasks, Identifier.fileSafe t.id = true := by
  constructor
  · rintro ⟨named, conditions, tasks, runs, start, distinctC, distinctT, safeC, safeT⟩
    exact ⟨⟨named, conditions, tasks, runs, start, distinctC, distinctT⟩, safeC, safeT⟩
  · rintro ⟨⟨named, conditions, tasks, runs, start, distinctC, distinctT⟩, safeC, safeT⟩
    exact ⟨named, conditions, tasks, runs, start, distinctC, distinctT, safeC, safeT⟩

theorem errorCount_issues_iff (base : Path) (exist : Path → Bool) :
    Issue.errorCount (m.issues base exist) = 0 ↔ m.Consistent ∧ m.Complete base exist := by
  simp only [issues, Issue.errorCount_append, Nat.add_eq_zero_iff, errorCount_experimentIssues,
    errorCount_conditionIssues, errorCount_tasksIssues]
  constructor
  · rintro ⟨⟨⟨named, runs, start, control, treatment, tasks⟩, names, distinctC, -⟩, complete,
      distinctT, -⟩
    have conditions : m.conditions ≠ [] := by
      obtain ⟨c, declared, -⟩ := control
      exact List.ne_nil_of_mem declared
    exact ⟨⟨named, conditions, tasks, runs, start, distinctC, distinctT⟩,
      control, treatment, names, complete⟩
  · rintro ⟨⟨named, -, tasks, runs, start, distinctC, distinctT⟩, control, treatment, names,
      complete⟩
    exact ⟨⟨⟨named, runs, start, control, treatment, tasks⟩, names, distinctC, by simp⟩, complete,
      distinctT, by simp⟩

section Errors

variable {base : Path} {exist : Path → Bool} {issue : Issue}

private theorem mem_experimentError {present : Bool} {message : String} :
    issue ∈ experimentError present message ↔
      present = true ∧ issue = .error .experiment Identifier.unattributed message := by
  cases present <;> simp [experimentError]

private theorem omission_of_mem_experimentIssues (consistent : m.Consistent)
    (member : issue ∈ m.experimentIssues) : Omission m base exist issue := by
  have starts : m.allStartsBlank = false := by
    simpa [allStartsBlank] using consistent.hasStart
  have runs : (m.runsPerCell == 0) = false := by
    simpa using Nat.ne_of_gt consistent.wantsRuns
  have tasks : m.tasks.isEmpty = false := List.isEmpty_eq_false_iff.mpr consistent.hasTasks
  simp only [experimentIssues, List.mem_append, mem_experimentError, consistent.experimentNamed,
    runs, starts, tasks, Bool.false_eq_true, false_and, or_false, false_or] at member
  rcases member with ⟨missing, rfl⟩ | ⟨missing, rfl⟩
  · exact .control (by simpa [primaryControl?] using missing)
  · exact .treatment (by simpa [primaryTreatment?] using missing)

private theorem blank_of_mem_conditionIssues (seen : List String) (conditions : List Condition)
    (distinct : (conditions.map fun c => Identifier.key c.id).Nodup ∧
      ∀ key ∈ conditions.map fun c => Identifier.key c.id, key ∉ seen)
    (member : issue ∈ conditionIssues seen conditions) :
    (∃ c ∈ conditions, Text.allBlank c.id = true) ∧
      issue = .error .condition Identifier.unattributed "condition id must be non-empty" := by
  induction conditions generalizing seen with
  | nil => cases member
  | cons c rest ih =>
    rw [List.map_cons, Identifier.nodup_unseen_cons_iff] at distinct
    obtain ⟨fresh, distinct, unseen⟩ := distinct
    rw [List.exists_mem_cons_iff]
    rw [conditionIssues] at member
    split at member
    next blank =>
      rcases List.mem_cons.mp member with rfl | later
      · exact ⟨Or.inl blank, rfl⟩
      · have others : ∀ key ∈ rest.map fun c => Identifier.key c.id, key ∉ seen :=
          fun key isKey => List.not_mem_of_not_mem_cons (unseen key isKey)
        obtain ⟨blankLater, message⟩ := ih seen ⟨distinct, others⟩ later
        exact ⟨Or.inr blankLater, message⟩
    next =>
      rw [if_neg (by simpa using fresh), List.nil_append] at member
      obtain ⟨blankLater, message⟩ := ih _ ⟨distinct, unseen⟩ member
      exact ⟨Or.inr blankLater, message⟩

private theorem omission_of_mem_taskIssues {t : Task} (declared : t ∈ m.tasks)
    (member : issue ∈ taskIssues base exist t) (isError : issue.isError = true) :
    Omission m base exist issue := by
  simp only [taskIssues, List.mem_append] at member
  rcases member with (((title | repo) | commit) | checks) | prompt
  · split at title
    · rw [List.mem_singleton.mp title] at isError
      cases isError
    · cases title
  · split at repo
    next blank =>
      obtain rfl := List.mem_singleton.mp repo
      exact .repo t declared blank
    next => cases repo
  · split at commit
    next blank =>
      obtain rfl := List.mem_singleton.mp commit
      exact .commit t declared blank
    next => cases commit
  · split at checks
    next blank =>
      obtain rfl := List.mem_singleton.mp checks
      exact .checks t declared (by simpa using blank)
    next => cases checks
  · cases mentioned : t.promptFile with
    | none => simp [promptPath?, mentioned] at prompt
    | some file =>
      simp only [promptPath?, mentioned, Option.map_some] at prompt
      split at prompt
      next missing =>
        obtain rfl := List.mem_singleton.mp prompt
        exact .prompt t declared file mentioned (by simpa using missing)
      next => cases prompt

private theorem omission_of_mem_tasksIssues (seen : List String) (tasks : List Task)
    (declared : ∀ t ∈ tasks, t ∈ m.tasks)
    (distinct : (tasks.map fun t => Identifier.key t.id).Nodup ∧
      ∀ key ∈ tasks.map fun t => Identifier.key t.id, key ∉ seen)
    (member : issue ∈ tasksIssues base exist seen tasks) (isError : issue.isError = true) :
    Omission m base exist issue := by
  induction tasks generalizing seen with
  | nil => cases member
  | cons t rest ih =>
    rw [List.forall_mem_cons] at declared
    rw [List.map_cons, Identifier.nodup_unseen_cons_iff] at distinct
    obtain ⟨fresh, distinct, unseen⟩ := distinct
    rw [tasksIssues] at member
    split at member
    next blank =>
      rcases List.mem_cons.mp member with rfl | later
      · exact .taskId t declared.1 blank
      · have others : ∀ key ∈ rest.map fun t => Identifier.key t.id, key ∉ seen :=
          fun key isKey => List.not_mem_of_not_mem_cons (unseen key isKey)
        exact ih seen declared.2 ⟨distinct, others⟩ later
    next =>
      rw [if_neg (by simpa using fresh), List.nil_append, List.mem_append] at member
      rcases member with here | later
      · exact omission_of_mem_taskIssues declared.1 here isError
      · exact ih _ declared.2 ⟨distinct, unseen⟩ later

theorem omission_of_mem_issues (consistent : m.Consistent) (member : issue ∈ m.issues base exist)
    (isError : issue.isError = true) : Omission m base exist issue := by
  rw [issues, List.mem_append, List.mem_append] at member
  rcases member with (experiment | conditions) | tasks
  · exact omission_of_mem_experimentIssues consistent experiment
  · obtain ⟨⟨c, declared, blank⟩, rfl⟩ := blank_of_mem_conditionIssues [] m.conditions
      ⟨consistent.distinctConditions, by simp⟩ conditions
    exact .conditionId c declared blank
  · exact omission_of_mem_tasksIssues [] m.tasks (fun _ => id)
      ⟨consistent.distinctTasks, by simp⟩ tasks isError

/-- No omission is an obstacle: their messages differ, mostly in the first letter. -/
theorem Omission.not_obstacle (omission : Omission m base exist issue) : ¬ Obstacle issue := by
  intro obstacle
  have first {message message' : String} (equal : message = message') :
      message.toList.head? = message'.toList.head? := congrArg (·.toList.head?) equal
  cases omission <;> generalize equal : Issue.error _ _ _ = other at obstacle <;>
    cases obstacle <;> simp only [Issue.error, Issue.mk.injEq, reduceCtorEq, false_and, and_false,
      true_and] at equal
  all_goals first
    | exact absurd (first equal.2) (by simp)
    | simp at equal

end Errors

/-- The two checks agree, whatever the manifest and wherever prompt files are looked for. -/
theorem checksAgree (m : Manifest) (base : Path) (exist : Path → Bool) :
    m.ChecksAgree base exist := by
  have accepted := checkInvariants_eq_ok_iff m
  refine ⟨?_, ?_, ?_⟩
  · intro noError
    have none : Issue.errorCount (m.issues base exist) = 0 := by
      rw [Issue.errorCount, List.countP_eq_zero]
      intro issue member
      rw [noError issue member]
      exact Bool.false_ne_true
    obtain ⟨consistent, -⟩ := (errorCount_issues_iff base exist).mp none
    rw [accepted, loadable_iff]
    exact and_iff_right consistent
  · intro loaded issue member isError
    have omission := omission_of_mem_issues (loadable_iff.mp (accepted.mp loaded)).1 member isError
    exact ⟨omission, omission.not_obstacle⟩
  · have fails : (∃ failure, m.checkInvariants = .error failure) ↔ ¬ m.Loadable := by
      rw [← accepted]
      cases m.checkInvariants <;> simp
    have positive : 0 < m.runsPerCell ↔ m.runsPerCell ≠ 0 := Nat.pos_iff_ne_zero
    rw [fails, Identifier.recurs_iff, Identifier.recurs_iff, List.map_map, List.map_map]
    constructor
    · intro unloadable
      by_contra sound
      simp only [not_or, not_not, not_forall, not_exists, not_and, Bool.not_eq_true,
        Bool.not_eq_false, exists_prop] at sound
      obtain ⟨named, conditions, tasks, runs, start, distinctC, distinctT, safeC, safeT⟩ := sound
      exact unloadable ⟨named, conditions, tasks, positive.mpr runs, start, distinctC, distinctT,
        safeC, safeT⟩
    · rintro failing ⟨named, conditions, tasks, runs, ⟨start, member, named'⟩, distinctC, distinctT,
        safeC, safeT⟩
      rcases failing with h | h | h | h | h | h | h | ⟨c, isCondition, h⟩ | ⟨t, isTask, h⟩
      · simp [named] at h
      · exact conditions h
      · exact tasks h
      · exact positive.mp runs h
      · simp [h start member] at named'
      · exact h distinctC
      · exact h distinctT
      · simp [safeC c isCondition] at h
      · simp [safeT t isTask] at h

end Manifest
end ToolTrial
