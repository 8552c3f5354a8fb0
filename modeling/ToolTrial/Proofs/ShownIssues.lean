import Mathlib.Data.List.Perm.Basic
import ToolTrial.Proofs.Issue
import ToolTrial.Report.Summary

/-!
The issues that a summary shows.  They are the first ones when errors go before warnings, as many as
there is room for, and those that are left out are counted in a line of their own.
-/

set_option autoImplicit false
set_option relaxedAutoImplicit false

namespace ToolTrial

namespace Issue

variable (limit : Nat) (issues : List Issue)

theorem not_isError_iff (i : Issue) : (!i.isError) = (i.severity == .warning) := by
  cases kind : i.severity <;> simp [isError, kind]

private theorem partition_perm :
    (issues.filter isError ++ issues.filter fun i => !i.isError).Perm issues :=
  List.filter_append_perm isError issues

theorem top_prefix : top limit issues <+:
    issues.filter isError ++ issues.filter fun i => i.severity == .warning := by
  have warnings : (issues.filter fun i => !i.isError) =
      issues.filter fun i => i.severity == .warning :=
    List.filter_congr fun i _ => not_isError_iff i
  rw [← warnings]
  exact List.take_prefix limit _

theorem length_top : (top limit issues).length = min limit issues.length := by
  rw [top, List.length_take, (partition_perm issues).length_eq]

theorem isError_of_mem_top {limit : Nat} {issues : List Issue}
    (cut : errorCount (top limit issues) < errorCount issues) {i : Issue}
    (shown : i ∈ top limit issues) : i.isError = true := by
  have split : top limit issues = (issues.filter isError).take limit ++
      (issues.filter fun i => !i.isError).take (limit - (issues.filter isError).length) := by
    rw [top, List.take_append]
  rcases Nat.lt_or_ge limit (issues.filter isError).length with inErrors | past
  · have noRoom : limit - (issues.filter isError).length = 0 := by omega
    rw [split, noRoom, List.take_zero, List.append_nil] at shown
    exact (List.mem_filter.mp (List.mem_of_mem_take shown)).2
  · have all : errorCount (issues.filter isError) = errorCount issues := by
      simp only [errorCount, List.countP_filter, Bool.and_self]
    rw [split, List.take_of_length_le past, errorCount_append, all] at cut
    omega

end Issue

namespace Summary

def omissionLine (omitted : Nat) : String := "- ... " ++ toString omitted ++ " more\n"

/-- How issues are listed, with room for some of them: which are shown, how many the text says are
left out, if it says so, and the text. -/
structure Lists (all : List Issue) (room : Nat) (shown : List Issue) (announced : Option Nat)
    (text : String) : Prop where
  length_shown : shown.length = min room all.length
  shown_prefix : shown <+:
    all.filter Issue.isError ++ all.filter fun i => i.severity == .warning
  errors_first : Issue.errorCount shown < Issue.errorCount all → ∀ i ∈ shown, i.isError = true
  announced_iff : ∀ omitted, announced = some omitted ↔
    room < all.length ∧ omitted = all.length - room
  adds_up : announced.getD 0 + shown.length = all.length
  text_of_some : all ≠ [] →
    text = String.join (shown.map issueLine) ++ announced.elim "" omissionLine
  text_eq_none_iff : text = "None.\n" ↔ all = []

def omitted? (all : List Issue) (room : Nat) : Option Nat :=
  if room < all.length then some (all.length - room) else none

def listing (all : List Issue) (room : Nat) : String :=
  if all = [] then "None.\n"
  else String.join ((Issue.top room all).map issueLine) ++ (omitted? all room).elim "" omissionLine

section Listing

variable (all : List Issue) {room : Nat}

theorem omitted?_eq_some_iff (omitted : Nat) : omitted? all room = some omitted ↔
    room < all.length ∧ omitted = all.length - room := by
  unfold omitted?
  split
  · rename_i more
    simp [more, eq_comm]
  · rename_i noMore
    simp [noMore]

theorem omitted?_add_length_top :
    (omitted? all room).getD 0 + (Issue.top room all).length = all.length := by
  rw [Issue.length_top, omitted?]
  split
  · rw [Option.getD_some]
    omega
  · rw [Option.getD_none]
    omega

theorem top_isEmpty_iff (some_room : 1 ≤ room) :
    (Issue.top room all).isEmpty = true ↔ all = [] := by
  rw [List.isEmpty_iff, ← List.length_eq_zero_iff, Issue.length_top, ← List.length_eq_zero_iff]
  omega

/-- The remainder that is computed beside the list is that for which there was no room. -/
theorem issues_eq_listing (some_room : 1 ≤ room) :
    issues all room = "## Validation issues\n\n" ++ listing all room := by
  have notice : (if 0 < all.length - (Issue.top room all).length then
      "- ... " ++ toString (all.length - (Issue.top room all).length) ++ " more\n" else "") =
      (omitted? all room).elim "" omissionLine := by
    have sum : (omitted? all room).getD 0 + (Issue.top room all).length = all.length :=
      omitted?_add_length_top all
    cases left : omitted? all room with
    | none =>
      rw [left, Option.getD_none] at sum
      rw [if_neg (by omega), Option.elim_none]
    | some omitted =>
      obtain ⟨more, -⟩ := (omitted?_eq_some_iff all omitted).mp left
      rw [left, Option.getD_some] at sum
      have length := Issue.length_top room all
      have remainder : all.length - (Issue.top room all).length = omitted := by omega
      rw [remainder, if_pos (by omega), Option.elim_some, omissionLine]
  unfold issues listing
  simp only [top_isEmpty_iff all some_room, notice]

private theorem issueLine_append_ne (i : Issue) (rest : String) :
    issueLine i ++ rest ≠ "None.\n" := by
  intro equal
  have start := congrArg (fun s => s.toList.head?) equal
  simp [issueLine] at start

theorem listing_eq_none_iff (some_room : 1 ≤ room) : listing all room = "None.\n" ↔ all = [] := by
  constructor
  · intro none
    by_contra some_issue
    have notEmpty := mt (top_isEmpty_iff all some_room).mp some_issue
    obtain ⟨i, rest, shown⟩ := List.exists_cons_of_ne_nil (mt List.isEmpty_iff.mpr notEmpty)
    rw [listing, if_neg some_issue, shown, List.map_cons, String.join_cons,
      String.append_assoc] at none
    exact issueLine_append_ne i _ none
  · exact fun noIssue => if_pos noIssue

theorem lists_listing (some_room : 1 ≤ room) :
    Lists all room (Issue.top room all) (omitted? all room) (listing all room) where
  length_shown := Issue.length_top room all
  shown_prefix := Issue.top_prefix room all
  errors_first := fun cut _ shown => Issue.isError_of_mem_top cut shown
  announced_iff := omitted?_eq_some_iff all
  adds_up := omitted?_add_length_top all
  text_of_some := fun some_issue => if_neg some_issue
  text_eq_none_iff := listing_eq_none_iff all some_room

end Listing

/-- Where there is room for an issue, a summary ends with a list that shows the top issues: the
first of them, errors before warnings.  It says how many it leaves out, if it does. -/
theorem render_lists_issues (score : ScoreReport) (runs : RunReport) {room : Nat}
    (some_room : 1 ≤ room) : ∃ announced text,
      render score runs room = header score runs.validation ++ conditions score.summaries ++
        primary score.primary ++ tasks score.byTask ++ "## Validation issues\n\n" ++ text ∧
      Lists runs.validation.issues room (Issue.top room runs.validation.issues) announced text := by
  refine ⟨_, _, ?_, lists_listing runs.validation.issues some_room⟩
  rw [render, issues_eq_listing _ some_room]
  simp only [String.append_assoc]

private def ghost : Issue := .error .run "b" "unknown condition_id 'ghost'"

private def unused : Issue :=
  .warning .run "a" "treatment condition 'with' made no treatment tool calls"

private def twice : Issue := .error .run "d" "duplicate run_id"

private def emptyScore : ScoreReport :=
  ⟨"exp", "now", "00", 3, false, [],
    ⟨none, none, 0, 0, .insufficient ⟨"no control condition declared", none, none, none⟩⟩, [],
    ⟨"score.json"⟩⟩

private def threeIssues : RunReport :=
  ⟨⟨false, 3, 4, 3, 2, 1, 0, 0, 1, [unused, ghost, twice]⟩, ⟨"runs.json"⟩⟩

theorem render_lists_issues_three : 1 ≤ 2 ∧ ∃ text,
    render emptyScore threeIssues 2 = header emptyScore threeIssues.validation ++ conditions [] ++
      primary emptyScore.primary ++ tasks [] ++ "## Validation issues\n\n" ++ text ∧
    Lists [unused, ghost, twice] 2 [ghost, twice] (some 1) text := by
  refine ⟨by decide, ?_⟩
  obtain ⟨announced, text, written, lists⟩ :=
    render_lists_issues emptyScore threeIssues (by decide : 1 ≤ 2)
  have errors : Issue.top 2 [unused, ghost, twice] = [ghost, twice] := by decide
  have oneMore : announced = some 1 := (lists.announced_iff 1).mpr (by decide)
  subst oneMore
  exact ⟨text, written, errors ▸ lists⟩

end Summary
end ToolTrial
