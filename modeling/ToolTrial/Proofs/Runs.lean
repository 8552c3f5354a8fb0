import ToolTrial.Check.Runs
import ToolTrial.Proofs.Loading

/-!
What the check of runs means.  Runs that have been loaded repeat no identifier; such runs cause no
error exactly when each of them fits the manifest, and runs that fit cause no warning exactly when
there is nothing remarkable about them.
-/

set_option autoImplicit false
set_option relaxedAutoImplicit false

namespace ToolTrial

def Manifest.CallsTreatment (m : Manifest) (name : String) : Prop :=
  (Tooling.ofList m.toolNameStarts).isTreatmentTool name = true

namespace Run

/-- A run of a known task in a known arm, with numbers in their ranges, and without calls of
treatment tools in a control arm. -/
structure Fits (m : Manifest) (r : Run) : Prop where
  hasCondition : ∃ c ∈ m.conditions, Identifier.same c.id r.conditionId = true
  hasTask : ∃ t ∈ m.tasks, Identifier.same t.id r.taskId = true
  replicate : ∀ n, r.replicate = some n → 1 ≤ n
  helpfulness : ∀ score, r.helpfulness = some score → 1 ≤ score ∧ score ≤ 5
  clean : ∀ c ∈ m.conditions, Identifier.same c.id r.conditionId = true → c.toolsEnabled = false →
    ∀ call ∈ r.toolCalls, ¬ m.CallsTreatment call.toolName

/-- A run that, in a treatment arm, was offered a treatment tool and called one. -/
structure TriesTools (m : Manifest) (r : Run) : Prop where
  offered : ∀ c ∈ m.conditions, Identifier.same c.id r.conditionId = true → c.toolsEnabled = true →
    ∃ name ∈ r.toolsOffered, m.CallsTreatment name
  used : ∀ c ∈ m.conditions, Identifier.same c.id r.conditionId = true → c.toolsEnabled = true →
    ∃ call ∈ r.toolCalls, m.CallsTreatment call.toolName

/-- Two runs in one cell with the same replicate number. -/
structure Clash (a b : Run) : Prop where
  sameTask : Identifier.same a.taskId b.taskId = true
  sameCondition : Identifier.same a.conditionId b.conditionId = true
  sameReplicate : ∃ n, a.replicate = some n ∧ b.replicate = some n

end Run

/-- As many runs as are expected, no two of them in one place, and treatment tools tried wherever
there are some. -/
structure Manifest.Unremarkable (m : Manifest) (runs : List Run) : Prop where
  toolsTried : ∀ r ∈ runs, r.TriesTools m
  placesDiffer : runs.Pairwise fun a b => ¬ a.Clash b
  enough : m.expectedRuns ≤ runs.length

section Lookup

variable {m : Manifest} (distinct : (m.conditions.map fun c => Identifier.key c.id).Nodup)
include distinct

theorem Manifest.condition?_eq_some_iff (id : String) (c : Condition) :
    m.condition? id = some c ↔ c ∈ m.conditions ∧ Identifier.same c.id id = true :=
  Identifier.find?_same_eq_some_iff Condition.id distinct id c

private theorem arm_eq_false_iff (id : String) (property : Condition → Bool) :
    (match m.condition? id with | some c => property c | none => false) = false ↔
      ∀ c ∈ m.conditions, Identifier.same c.id id = true → property c = false := by
  cases found : m.condition? id with
  | none =>
    have nobody : ∀ c ∈ m.conditions, ¬ Identifier.same c.id id = true :=
      List.find?_eq_none.mp found
    simp only [true_iff]
    exact fun c member named => absurd named (nobody c member)
  | some c =>
    have unique := Manifest.condition?_eq_some_iff distinct id
    constructor
    · intro false_ other member named
      have equal : c = other :=
        Option.some.inj (found.symm.trans ((unique other).mpr ⟨member, named⟩))
      exact equal ▸ false_
    · intro all
      obtain ⟨member, named⟩ := (unique c).mp found
      exact all c member named

end Lookup

namespace Tooling

variable (m : Manifest) (r : Run)

private theorem wasUsed_iff :
    (Tooling.ofList m.toolNameStarts).wasUsed r = true ↔
      ∃ call ∈ r.toolCalls, m.CallsTreatment call.toolName := by
  simp [wasUsed, treatmentCalls, Manifest.CallsTreatment]

private theorem wasOffered_iff :
    (Tooling.ofList m.toolNameStarts).wasOffered r = true ↔
      ∃ name ∈ r.toolsOffered, m.CallsTreatment name := by
  simp [wasOffered, Manifest.CallsTreatment]

end Tooling

namespace RunValidation

variable {m : Manifest}

theorem place?_of_fits {r : Run} (fits : r.Fits m) :
    place? m r =
      r.replicate.map fun n => (Identifier.key r.taskId, Identifier.key r.conditionId, n) := by
  have condition := (m.isSome_condition?_iff r.conditionId).mpr fits.hasCondition
  have task := (m.isSome_task?_iff r.taskId).mpr fits.hasTask
  unfold place?
  cases given : r.replicate with
  | none => rfl
  | some n =>
    have positive : 0 < n := fits.replicate n given
    simp [positive, condition, task]

/-- Two runs that fit clash exactly when they take one place. -/
theorem place?_eq_iff_clash {a b : Run} (ha : a.Fits m) (hb : b.Fits m) :
    (∃ place, place? m a = some place ∧ place? m b = some place) ↔ a.Clash b := by
  simp only [place?_of_fits ha, place?_of_fits hb, Option.map_eq_some_iff]
  constructor
  · rintro ⟨-, ⟨n, hn, rfl⟩, k, hk, equal⟩
    simp only [Prod.mk.injEq] at equal
    obtain ⟨task, condition, rfl⟩ := equal
    exact ⟨(Identifier.same_iff_key_eq _ _).mpr task.symm,
      (Identifier.same_iff_key_eq _ _).mpr condition.symm, k, hn, hk⟩
  · rintro ⟨task, condition, n, hn, hk⟩
    refine ⟨_, ⟨n, hn, rfl⟩, n, hk, ?_⟩
    rw [(Identifier.same_iff_key_eq _ _).mp task, (Identifier.same_iff_key_eq _ _).mp condition]

theorem idIssues_eq_nil {earlier : List Run} {r : Run}
    (named : Text.allBlank r.runId = false)
    (fresh : ∀ e ∈ earlier, Identifier.key e.runId ≠ Identifier.key r.runId) :
    idIssues earlier r = [] := by
  have unseen : Identifier.key r.runId ∉ earlier.filterMap idKey? := by
    rw [List.mem_filterMap]
    rintro ⟨e, member, equal⟩
    unfold idKey? at equal
    split at equal
    · cases equal
    · exact fresh e member (Option.some.inj equal)
  simp [idIssues, idKey?, named, unseen]

theorem errorCount_replicateIssues (m : Manifest) (earlier : List Run) (r : Run) :
    Issue.errorCount (replicateIssues m earlier r) =
      if r.replicate.any (· ≤ 0) then 1 else 0 := by
  rw [replicateIssues]
  cases r.replicate with
  | none => rfl
  | some n => by_cases small : n ≤ 0 <;> cases place? m r <;> simp [small]

private theorem errorCount_replicateIssues_eq_zero_iff (earlier : List Run) (r : Run) :
    Issue.errorCount (replicateIssues m earlier r) = 0 ↔
      ∀ n, r.replicate = some n → 1 ≤ n := by
  rw [errorCount_replicateIssues]
  cases r.replicate with
  | none => simp
  | some n =>
    have positive : 0 < n ↔ 1 ≤ n := Iff.rfl
    simp [positive]

private theorem warningCount_replicateIssues {earlier : List Run} {r : Run}
    (fits : r.Fits m) (others : ∀ e ∈ earlier, e.Fits m) :
    Issue.warningCount (replicateIssues m earlier r) = 0 ↔ ∀ e ∈ earlier, ¬ e.Clash r := by
  have taken : (∃ e ∈ earlier, e.Clash r) ↔
      ∃ place, place? m r = some place ∧ place ∈ earlier.filterMap (place? m) := by
    simp only [List.mem_filterMap]
    constructor
    · rintro ⟨e, member, clash⟩
      obtain ⟨place, he, hr⟩ := (place?_eq_iff_clash (others e member) fits).mpr clash
      exact ⟨place, hr, e, member, he⟩
    · rintro ⟨place, hr, e, member, he⟩
      exact ⟨e, member, (place?_eq_iff_clash (others e member) fits).mp ⟨place, he, hr⟩⟩
  have free : (∀ e ∈ earlier, ¬ e.Clash r) ↔
      ∀ place, place? m r = some place → place ∉ earlier.filterMap (place? m) := by
    simpa using not_congr taken
  rw [free, replicateIssues, place?_of_fits fits]
  cases given : r.replicate with
  | none => simp
  | some n =>
    have positive : ¬ n ≤ 0 := by
      have := fits.replicate n given
      omega
    simp [positive]

theorem warningCount_scoreIssues (r : Run) :
    Issue.warningCount (scoreIssues r) = 0 := by
  unfold scoreIssues
  cases r.helpfulness with
  | none => rfl
  | some score => by_cases valid : Run.isScore score = true <;> simp [valid]

theorem errorCount_scoreIssues (r : Run) : Issue.errorCount (scoreIssues r) =
    if r.helpfulness.any (fun score => score < 1 || 5 < score) then 1 else 0 := by
  rw [scoreIssues]
  cases r.helpfulness with
  | none => rfl
  | some score =>
    have outside : Run.isScore score = !(decide (score < 1) || decide (5 < score)) := by
      rw [Run.isScore, Run.leastHelpfulness, Run.greatestHelpfulness, Bool.not_or,
        ← decide_not, ← decide_not]
      simp only [Int.not_lt]
    rw [Option.any_some]
    by_cases apart : (decide (score < 1) || decide (5 < score)) = true <;> simp [outside, apart]

private theorem errorCount_scoreIssues_eq_zero_iff (r : Run) :
    Issue.errorCount (scoreIssues r) = 0 ↔
      ∀ score, r.helpfulness = some score → 1 ≤ score ∧ score ≤ 5 := by
  rw [errorCount_scoreIssues]
  cases r.helpfulness <;> simp

theorem errorCount_toolIssues (m : Manifest) (r : Run) :
    Issue.errorCount (toolIssues m r) = if isContaminated m r then 1 else 0 := by
  simp only [toolIssues, Issue.errorCount_append, Issue.errorCount_ite_error,
    Issue.errorCount_ite_warning, Nat.add_zero]

private theorem errorCount_toolIssues_eq_zero_iff
    (distinct : (m.conditions.map fun c => Identifier.key c.id).Nodup) (r : Run) :
    Issue.errorCount (toolIssues m r) = 0 ↔
      ∀ c ∈ m.conditions, Identifier.same c.id r.conditionId = true → c.toolsEnabled = false →
        ∀ call ∈ r.toolCalls, ¬ m.CallsTreatment call.toolName := by
  have clean : isContaminated m r = false ↔ _ := arm_eq_false_iff distinct r.conditionId _
  simp only [errorCount_toolIssues, ite_eq_right_iff, Nat.one_ne_zero, imp_false,
    Bool.not_eq_true, clean, Bool.and_eq_false_iff, Bool.not_eq_false']
  refine forall₃_congr fun c _ _ => ?_
  have used := Tooling.wasUsed_iff m r
  cases c.toolsEnabled <;> simp [← Bool.not_eq_true, used]

theorem warningCount_toolIssues (m : Manifest) (r : Run) :
    Issue.warningCount (toolIssues m r) =
      (if lacksOffer m r then 1 else 0) + if lacksUsage m r then 1 else 0 := by
  simp only [toolIssues, Issue.warningCount_append, Issue.warningCount_ite_error,
    Issue.warningCount_ite_warning, Nat.zero_add]

private theorem warningCount_toolIssues_eq_zero_iff
    (distinct : (m.conditions.map fun c => Identifier.key c.id).Nodup) (r : Run) :
    Issue.warningCount (toolIssues m r) = 0 ↔ r.TriesTools m := by
  have offer : lacksOffer m r = false ↔ _ := arm_eq_false_iff distinct r.conditionId _
  have usage : lacksUsage m r = false ↔ _ := arm_eq_false_iff distinct r.conditionId _
  have tries : r.TriesTools m ↔ lacksOffer m r = false ∧ lacksUsage m r = false := by
    rw [offer, usage]
    constructor
    · rintro ⟨offered, used⟩
      refine ⟨fun c member named => ?_, fun c member named => ?_⟩
      · have tool := fun enabled =>
          (Tooling.wasOffered_iff m r).mpr (offered c member named enabled)
        cases enabled : c.toolsEnabled <;> simp_all
      · have tool := fun enabled => (Tooling.wasUsed_iff m r).mpr (used c member named enabled)
        cases enabled : c.toolsEnabled <;> simp_all
    · rintro ⟨offered, used⟩
      refine ⟨fun c member named enabled => ?_, fun c member named enabled => ?_⟩
      · rw [← Tooling.wasOffered_iff]
        simpa [enabled] using offered c member named
      · rw [← Tooling.wasUsed_iff]
        simpa [enabled] using used c member named
  simp only [warningCount_toolIssues, Nat.add_eq_zero_iff, ite_eq_right_iff, Nat.one_ne_zero,
    imp_false, Bool.not_eq_true, tries]

theorem errorCount_referenceIssues (m : Manifest) (r : Run) :
    Issue.errorCount (referenceIssues m r) =
      (if (m.condition? r.conditionId).isNone then 1 else 0) +
        if (m.task? r.taskId).isNone then 1 else 0 := by
  rw [referenceIssues, Issue.errorCount_append, Issue.errorCount_ite_error,
    Issue.errorCount_ite_error]

private theorem errorCount_referenceIssues_eq_zero_iff (r : Run) :
    Issue.errorCount (referenceIssues m r) = 0 ↔
      (∃ c ∈ m.conditions, Identifier.same c.id r.conditionId = true) ∧
        ∃ t ∈ m.tasks, Identifier.same t.id r.taskId = true := by
  simp only [errorCount_referenceIssues, Nat.add_eq_zero_iff, ite_eq_right_iff, Nat.one_ne_zero,
    imp_false, Bool.not_eq_true, Option.isNone_eq_false_iff, m.isSome_condition?_iff,
    m.isSome_task?_iff]

theorem warningCount_referenceIssues (m : Manifest) (r : Run) :
    Issue.warningCount (referenceIssues m r) = 0 := by
  simp only [referenceIssues, Issue.warningCount_append, Issue.warningCount_ite_error]

section Run

variable (distinct : (m.conditions.map fun c => Identifier.key c.id).Nodup)
  {earlier : List Run} {r : Run}
include distinct

private theorem errorCount_issuesOf (named : Text.allBlank r.runId = false)
    (fresh : ∀ e ∈ earlier, Identifier.key e.runId ≠ Identifier.key r.runId) :
    Issue.errorCount (issuesOf m earlier r) = 0 ↔ r.Fits m := by
  simp only [issuesOf, idIssues_eq_nil named fresh, Issue.errorCount_append, Issue.errorCount_nil,
    Nat.add_eq_zero_iff, true_and, errorCount_referenceIssues_eq_zero_iff,
    errorCount_replicateIssues_eq_zero_iff, errorCount_toolIssues_eq_zero_iff distinct,
    errorCount_scoreIssues_eq_zero_iff]
  constructor
  · rintro ⟨⟨⟨⟨condition, task⟩, replicate⟩, clean⟩, score⟩
    exact ⟨condition, task, replicate, score, clean⟩
  · rintro ⟨condition, task, replicate, score, clean⟩
    exact ⟨⟨⟨⟨condition, task⟩, replicate⟩, clean⟩, score⟩

private theorem warningCount_issuesOf (named : Text.allBlank r.runId = false)
    (fresh : ∀ e ∈ earlier, Identifier.key e.runId ≠ Identifier.key r.runId)
    (fits : r.Fits m) (others : ∀ e ∈ earlier, e.Fits m) :
    Issue.warningCount (issuesOf m earlier r) = 0 ↔
      r.TriesTools m ∧ ∀ e ∈ earlier, ¬ e.Clash r := by
  simp only [issuesOf, idIssues_eq_nil named fresh, Issue.warningCount_append,
    Issue.warningCount_nil, Nat.add_eq_zero_iff, true_and, and_true, warningCount_referenceIssues,
    warningCount_replicateIssues fits others, warningCount_toolIssues_eq_zero_iff distinct,
    warningCount_scoreIssues]
  exact and_comm

end Run

/-- Runs whose identifiers differ from one another and from those of the runs before them. -/
structure Continue (earlier runs : List Run) : Prop where
  identified : Run.Identified runs
  fresh : ∀ r ∈ runs, ∀ e ∈ earlier, Identifier.key e.runId ≠ Identifier.key r.runId

theorem Continue.step {earlier rest : List Run} {r : Run}
    (h : Continue earlier (r :: rest)) : Continue (r :: earlier) rest := by
  obtain ⟨⟨named, distinct⟩, fresh⟩ := h
  rw [List.forall_mem_cons] at named fresh
  rw [List.map_cons, List.nodup_cons, List.mem_map] at distinct
  refine ⟨⟨named.2, distinct.2⟩, fun other member => ?_⟩
  rw [List.forall_mem_cons]
  exact ⟨fun equal => distinct.1 ⟨other, member, equal.symm⟩, fresh.2 other member⟩

section Runs

variable (distinct : (m.conditions.map fun c => Identifier.key c.id).Nodup)
  {earlier runs : List Run}
include distinct

private theorem errorCount_issuesFrom (h : Continue earlier runs) :
    Issue.errorCount (issuesFrom m earlier runs) = 0 ↔ ∀ r ∈ runs, r.Fits m := by
  induction runs generalizing earlier with
  | nil => simp [issuesFrom]
  | cons r rest ih =>
    have here := errorCount_issuesOf distinct (h.identified.named r List.mem_cons_self)
      (h.fresh r List.mem_cons_self)
    rw [issuesFrom, Issue.errorCount_append, Nat.add_eq_zero_iff, here, ih h.step,
      List.forall_mem_cons]

private theorem warningCount_issuesFrom (h : Continue earlier runs) (fit : ∀ r ∈ runs, r.Fits m)
    (others : ∀ e ∈ earlier, e.Fits m) :
    Issue.warningCount (issuesFrom m earlier runs) = 0 ↔
      (∀ r ∈ runs, r.TriesTools m) ∧ (∀ r ∈ runs, ∀ e ∈ earlier, ¬ e.Clash r) ∧
        runs.Pairwise fun a b => ¬ a.Clash b := by
  -- A clash with a run that was looked at moves into the list when that run comes off its front.
  induction runs generalizing earlier with
  | nil => simp [issuesFrom]
  | cons r rest ih =>
    rw [List.forall_mem_cons] at fit
    have here := warningCount_issuesOf distinct (h.identified.named r List.mem_cons_self)
      (h.fresh r List.mem_cons_self) fit.1 others
    have there := ih h.step fit.2 (List.forall_mem_cons.mpr ⟨fit.1, others⟩)
    rw [issuesFrom, Issue.warningCount_append, Nat.add_eq_zero_iff, here, there]
    simp only [List.forall_mem_cons, List.pairwise_cons]
    constructor
    · rintro ⟨⟨tries, free⟩, triesRest, freeRest, apart⟩
      exact ⟨⟨tries, triesRest⟩, ⟨free, fun other member => (freeRest other member).2⟩,
        fun other member => (freeRest other member).1, apart⟩
    · rintro ⟨⟨tries, triesRest⟩, ⟨free, freeRest⟩, head, apart⟩
      exact ⟨⟨tries, free⟩, triesRest,
        fun other member => ⟨head other member, freeRest other member⟩, apart⟩

end Runs

variable {runs : List Run}
  (distinct : (m.conditions.map fun c => Identifier.key c.id).Nodup)
  (identified : Run.Identified runs)
include distinct identified

theorem ofRuns_valid_iff : (ofRuns m runs).valid = true ↔ ∀ r ∈ runs, r.Fits m := by
  have coverage : Issue.errorCount (coverageIssues m runs) = 0 :=
    Issue.errorCount_ite_warning _ _ _ _
  simp only [ofRuns, beq_iff_eq, Issue.errorCount_append, coverage, Nat.add_zero]
  exact errorCount_issuesFrom distinct ⟨identified, by simp⟩

theorem ofRuns_warningCount_eq_zero_iff (fit : ∀ r ∈ runs, r.Fits m) :
    (ofRuns m runs).warningCount = 0 ↔ m.Unremarkable runs := by
  have coverage : Issue.warningCount (coverageIssues m runs) = 0 ↔
      ¬ runs.length < m.expectedRuns :=
    Issue.warningCount_ite_warning_eq_zero _ _ _ _
  have start : Continue [] runs := ⟨identified, by simp⟩
  simp only [ofRuns, Issue.warningCount_append, Nat.add_eq_zero_iff, coverage, Nat.not_lt,
    warningCount_issuesFrom distinct start fit (List.forall_mem_nil _)]
  constructor
  · rintro ⟨⟨tries, -, apart⟩, enough⟩
    exact ⟨tries, apart, enough⟩
  · rintro ⟨tries, apart, enough⟩
    exact ⟨⟨tries, by simp, apart⟩, enough⟩

end RunValidation
end ToolTrial
