import ToolTrial.Issue

/-!
Counting issues.  Counts add up over concatenations; an issue that is raised on a condition counts
as nothing exactly when the condition fails.
-/

set_option autoImplicit false
set_option relaxedAutoImplicit false

namespace ToolTrial.Issue

variable (scope : Scope) (id message : String) (issues rest : List Issue)

@[simp]
theorem errorCount_nil : errorCount [] = 0 :=
  rfl

@[simp]
theorem errorCount_append : errorCount (issues ++ rest) = errorCount issues + errorCount rest :=
  List.countP_append

@[simp]
theorem errorCount_cons_error :
    errorCount (.error scope id message :: rest) = errorCount rest + 1 :=
  List.countP_cons_of_pos rfl

@[simp]
theorem errorCount_cons_warning :
    errorCount (.warning scope id message :: rest) = errorCount rest :=
  List.countP_cons_of_neg (by simp [isError, warning])

@[simp]
theorem warningCount_nil : warningCount [] = 0 :=
  rfl

private theorem errorCount_le_length : errorCount issues ≤ issues.length :=
  List.countP_le_length

theorem length_eq_add : issues.length = errorCount issues + warningCount issues := by
  have bound := errorCount_le_length issues
  simp only [warningCount]
  omega

@[simp]
theorem warningCount_append :
    warningCount (issues ++ rest) = warningCount issues + warningCount rest := by
  have first := errorCount_le_length issues
  have second := errorCount_le_length rest
  simp only [warningCount, errorCount_append, List.length_append]
  omega

@[simp]
theorem warningCount_cons_error :
    warningCount (.error scope id message :: rest) = warningCount rest := by
  simp only [warningCount, errorCount_cons_error, List.length_cons]
  omega

@[simp]
theorem warningCount_cons_warning :
    warningCount (.warning scope id message :: rest) = warningCount rest + 1 := by
  have bound := errorCount_le_length rest
  simp only [warningCount, errorCount_cons_warning, List.length_cons]
  omega

section Conditional

variable (p : Prop) [Decidable p]

@[simp]
theorem errorCount_ite_error_eq_zero :
    errorCount (if p then [.error scope id message] else []) = 0 ↔ ¬ p := by
  split <;> simp_all

theorem errorCount_ite_error :
    errorCount (if p then [.error scope id message] else []) = if p then 1 else 0 := by
  split <;> simp

@[simp]
theorem errorCount_ite_warning :
    errorCount (if p then [.warning scope id message] else []) = 0 := by
  split <;> simp

@[simp]
theorem warningCount_ite_error :
    warningCount (if p then [.error scope id message] else []) = 0 := by
  split <;> simp

theorem warningCount_ite_warning :
    warningCount (if p then [.warning scope id message] else []) = if p then 1 else 0 := by
  split <;> simp

@[simp]
theorem warningCount_ite_warning_eq_zero :
    warningCount (if p then [.warning scope id message] else []) = 0 ↔ ¬ p := by
  split <;> simp_all

end Conditional
end ToolTrial.Issue
