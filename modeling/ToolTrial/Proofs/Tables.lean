import Mathlib.Data.List.Forall2
import ToolTrial.Proofs.Literal
import ToolTrial.Report.Summary

/-!
The tables of a summary.  A bar ends a cell unless it is escaped: an odd number of backslashes
stands right before it.  A text that goes into a cell gets one more backslash before each of its
bars, so that the bars which were escaped before are the ones that end cells then.
-/

set_option autoImplicit false
set_option relaxedAutoImplicit false

namespace ToolTrial.Summary

section Bars

/-- What comes after a text is escaped when the text ends in an odd number of backslashes. -/
def escapes (front : List Char) : Bool :=
  (front.reverse.takeWhile (· == '\\')).length % 2 == 1

/-- The bars of a text that are escaped, or those that are not, when another text stands before
it. -/
def barsAfter (escaped : Bool) (front : List Char) : List Char → Nat
  | [] => 0
  | c :: back =>
    (if c = '|' ∧ escapes front = escaped then 1 else 0) + barsAfter escaped (front ++ [c]) back

/-- The number of bars that end a cell. -/
def openBars (s : String) : Nat := barsAfter false [] s.toList

def escapedBars (s : String) : Nat := barsAfter true [] s.toList

def EveryBar (escaped : Bool) (s : String) : Prop :=
  ∀ front back, s.toList = front ++ '|' :: back → escapes front = escaped

@[simp]
theorem escapes_concat (front : List Char) (c : Char) :
    escapes (front ++ [c]) = (c == '\\' && !escapes front) := by
  unfold escapes
  rw [List.reverse_append, List.reverse_singleton, List.singleton_append, List.takeWhile_cons]
  cases c == '\\' with
  | false => rfl
  | true =>
    rw [Bool.eq_iff_iff]
    simp only [if_true, List.length_cons, Bool.true_and, Bool.not_eq_true', beq_iff_eq,
      beq_eq_false_iff_ne]
    omega

variable (escaped : Bool)

/-- Of the text before only its last backslashes matter. -/
theorem barsAfter_congr {front front' : List Char} (alike : escapes front = escapes front')
    (cs : List Char) : barsAfter escaped front cs = barsAfter escaped front' cs := by
  induction cs generalizing front front' with
  | nil => rfl
  | cons c cs ih =>
    have next : escapes (front ++ [c]) = escapes (front' ++ [c]) := by
      rw [escapes_concat, escapes_concat, alike]
    rw [barsAfter, barsAfter, alike, ih next]

theorem barsAfter_append (front cs more : List Char) :
    barsAfter escaped front (cs ++ more) =
      barsAfter escaped front cs + barsAfter escaped (front ++ cs) more := by
  induction cs generalizing front with
  | nil => simp [barsAfter]
  | cons c cs ih =>
    rw [List.cons_append, barsAfter, barsAfter, ih, List.append_assoc, List.singleton_append,
      Nat.add_assoc]

theorem barsAfter_of_notMem {cs : List Char} (none : '|' ∉ cs) (front : List Char) :
    barsAfter escaped front cs = 0 := by
  induction cs generalizing front with
  | nil => rfl
  | cons c cs ih =>
    rw [List.mem_cons, not_or] at none
    rw [barsAfter, ih none.2, if_neg fun bar => none.1 bar.1.symm]

private theorem barsAfter_eq_zero_iff (before cs : List Char) :
    barsAfter escaped before cs = 0 ↔
      ∀ front back, cs = front ++ '|' :: back → escapes (before ++ front) = !escaped := by
  induction cs generalizing before with
  | nil => simp [barsAfter]
  | cons c cs ih =>
    rw [barsAfter, Nat.add_eq_zero_iff, ih]
    constructor
    · rintro ⟨here, later⟩ front back split
      cases front with
      | nil =>
        obtain ⟨rfl, rfl⟩ := List.cons.inj split
        rw [List.append_nil, Bool.eq_not]
        intro same
        rw [if_pos ⟨rfl, same⟩] at here
        simp at here
      | cons first front =>
        obtain ⟨rfl, rest⟩ := List.cons.inj split
        have found := later front back rest
        rwa [List.append_assoc, List.singleton_append] at found
    · intro every
      constructor
      · rw [if_neg]
        rintro ⟨rfl, same⟩
        have other := every [] cs rfl
        simp [same] at other
      · intro front back split
        have found := every (c :: front) back (by rw [split, List.cons_append])
        rwa [List.append_assoc, List.singleton_append]

theorem openBars_eq_zero_iff (s : String) : openBars s = 0 ↔ EveryBar true s := by
  rw [openBars, barsAfter_eq_zero_iff]
  rfl

theorem escapedBars_eq_zero_iff (s : String) : escapedBars s = 0 ↔ EveryBar false s := by
  rw [escapedBars, barsAfter_eq_zero_iff]
  rfl

end Bars

section Cells

private theorem barsAfter_flatMap_cellChar {front front' : List Char}
    (alike : escapes front = escapes front') (cs : List Char) :
    barsAfter false front (cs.flatMap cellChar) = barsAfter true front' cs := by
  -- the backslash before a bar turns around whether the bar is escaped; after the bar nothing is
  induction cs generalizing front front' with
  | nil => rfl
  | cons c cs ih =>
    rw [List.flatMap_cons, barsAfter_append, barsAfter]
    by_cases bar : c = '|'
    · subst bar
      have turned : barsAfter false front (cellChar '|') =
          if escapes front' = true then 1 else 0 := by
        simp [cellChar, barsAfter, alike]
      have after : escapes (front ++ cellChar '|') = escapes (front' ++ ['|']) := by
        have two : front ++ cellChar '|' = front ++ ['\\'] ++ ['|'] := by simp [cellChar]
        rw [two, escapes_concat, escapes_concat]
        simp
      rw [turned, ih after]
      simp
    · have kept : ∃ d, cellChar c = [d] ∧ d ≠ '|' ∧ (d == '\\') = (c == '\\') := by
        unfold cellChar
        rw [if_neg bar]
        split
        · rename_i breaks
          refine ⟨' ', rfl, by decide, ?_⟩
          rcases breaks with rfl | rfl <;> rfl
        · exact ⟨c, rfl, bar, rfl⟩
      obtain ⟨d, written, noBar, slash⟩ := kept
      have none : barsAfter false front [d] = 0 :=
        barsAfter_of_notMem false (by simpa using noBar.symm) front
      have after : escapes (front ++ [d]) = escapes (front' ++ [c]) := by
        rw [escapes_concat, escapes_concat, slash, alike]
      rw [written, none, ih after, if_neg fun both => bar both.1]

/-- The bars of a text that end cells once it is in one are those that were escaped before. -/
theorem openBars_cell (s : String) : openBars (cell s) = escapedBars s := by
  rw [openBars, cell, String.toList_ofList]
  exact barsAfter_flatMap_cellChar rfl s.toList

theorem everyBar_cell_iff (s : String) : EveryBar true (cell s) ↔ EveryBar false s := by
  rw [← openBars_eq_zero_iff, openBars_cell, escapedBars_eq_zero_iff]

def IsLine (s : String) : Prop := ∀ c ∈ s.toList, c ≠ '\n' ∧ c ≠ '\r'

instance (s : String) : Decidable (IsLine s) :=
  List.decidableBAll (fun c => c ≠ '\n' ∧ c ≠ '\r') s.toList

theorem isLine_cell (s : String) : IsLine (cell s) := by
  intro c inside
  rw [cell, String.toList_ofList, List.mem_flatMap] at inside
  obtain ⟨d, -, written⟩ := inside
  unfold cellChar at written
  split at written
  · rcases List.mem_cons.mp written with rfl | written
    · decide
    · rw [List.mem_singleton.mp written]
      decide
  · split at written
    · rw [List.mem_singleton.mp written]
      decide
    · rename_i noBreak
      rw [List.mem_singleton.mp written]
      exact ⟨fun feed => noBreak (Or.inr feed), fun ret => noBreak (Or.inl ret)⟩

/-- A text that can stand in a cell as it is: no bar and no line break. -/
def IsPlain (s : String) : Prop := ∀ c ∈ s.toList, c ≠ '|' ∧ c ≠ '\n' ∧ c ≠ '\r'

instance (s : String) : Decidable (IsPlain s) :=
  List.decidableBAll (fun c => c ≠ '|' ∧ c ≠ '\n' ∧ c ≠ '\r') s.toList

theorem IsPlain.isLine {s : String} (h : IsPlain s) : IsLine s :=
  fun c inside => (h c inside).2

theorem IsPlain.openBars_eq_zero {s : String} (h : IsPlain s) : openBars s = 0 :=
  barsAfter_of_notMem false (fun bar => (h '|' bar).1 rfl) []

theorem IsPlain.append {s t : String} (h : IsPlain s) (h' : IsPlain t) : IsPlain (s ++ t) := by
  intro c inside
  rw [String.toList_append, List.mem_append] at inside
  exact inside.elim (h c) (h' c)

private theorem isPlain_of_digit {c : Char} (digit : c.isDigit = true) :
    c ≠ '|' ∧ c ≠ '\n' ∧ c ≠ '\r' := by
  refine ⟨?_, ?_, ?_⟩ <;> rintro rfl <;> exact absurd digit (by decide)

theorem isPlain_toString (n : Nat) : IsPlain (toString n) := by
  intro c inside
  have digits : (toString n).toList = Nat.toDigits 10 n := Nat.toList_repr
  rw [digits] at inside
  exact isPlain_of_digit ((Number.areDigits_toDigits n).each c inside)

private theorem mem_pointed {c : Char} {places units : Nat}
    (inside : c ∈ Number.pointed places units) : c = '.' ∨ c.isDigit = true := by
  have padded : ∀ d ∈ Number.Layout.zeros (places + 1 - (Nat.toDigits 10 units).length) ++
      Nat.toDigits 10 units, d.isDigit = true := by
    intro d member
    rcases List.mem_append.mp member with zero | digit
    · rw [List.eq_of_mem_replicate zero]
      rfl
    · exact (Number.areDigits_toDigits units).each d digit
  rw [Number.pointed, List.mem_append, List.mem_cons] at inside
  rcases inside with front | point | back
  · exact Or.inr (padded c (List.mem_of_mem_take front))
  · exact Or.inl point
  · exact Or.inr (padded c (List.mem_of_mem_drop back))

theorem isPlain_fixed (places : Nat) (x : Float) : IsPlain (Number.fixed places x) := by
  unfold Number.fixed
  split
  · intro c inside
    rw [String.toList_ofList, List.mem_append] at inside
    rcases inside with sign | figure
    · split at sign
      · rw [List.mem_singleton.mp sign]
        decide
      · simp at sign
    · rcases mem_pointed figure with rfl | digit
      · decide
      · exact isPlain_of_digit digit
  · unfold Number.unbounded
    split
    · decide
    · split <;> decide

theorem isPlain_percent (x : Option Float) : IsPlain (percent x) := by
  cases x with
  | none => exact (by decide : IsPlain "n/a")
  | some x => exact (isPlain_fixed 1 (x * 100.0)).append (by decide)

theorem isPlain_number (x : Option Float) : IsPlain (number x) := by
  cases x with
  | none => exact (by decide : IsPlain "n/a")
  | some x => exact isPlain_fixed 2 x

theorem isPlain_status (s : Outcome.Status) : IsPlain s.name := by
  cases s <;> decide

end Cells

section Rows

def rowLine (cells : List String) : String := "| " ++ Text.join " | " cells ++ " |"

theorem row_eq (cells : List String) : row cells = rowLine cells ++ "\n" := by
  simp [row, rowLine, String.append_assoc]

private theorem toList_join (s : String) (rest : List String) :
    (Text.join " | " (s :: rest)).toList =
      s.toList ++ rest.flatMap fun t => ' ' :: '|' :: ' ' :: t.toList := by
  induction rest generalizing s with
  | nil => simp [Text.join]
  | cons t rest ih => simp [Text.join, ih]

theorem toList_rowLine {cells : List String} (some_cell : cells ≠ []) :
    (rowLine cells).toList =
      (cells.flatMap fun s => '|' :: ' ' :: (s.toList ++ [' '])) ++ ['|'] := by
  have shifted (rest : List String) :
      (rest.flatMap fun t => ' ' :: '|' :: ' ' :: t.toList) ++ [' ', '|'] =
        ' ' :: (rest.flatMap fun t => '|' :: ' ' :: (t.toList ++ [' '])) ++ ['|'] := by
    induction rest with
    | nil => rfl
    | cons t rest ih => simp [ih]
  obtain ⟨s, rest, rfl⟩ := List.exists_cons_of_ne_nil some_cell
  simp [rowLine, toList_join, shifted]

private theorem barsAfter_cell {front : List Char} (closed : escapes front = false) (s : String) :
    barsAfter false front ('|' :: ' ' :: (s.toList ++ [' '])) = 1 + openBars s ∧
      escapes (front ++ '|' :: ' ' :: (s.toList ++ [' '])) = false := by
  have start : escapes (front ++ ['|'] ++ [' ']) = escapes [] := escapes_concat _ ' '
  have inner := barsAfter_congr false start s.toList
  constructor
  · have blank : barsAfter false (front ++ ['|'] ++ [' '] ++ s.toList) [' '] = 0 :=
      barsAfter_of_notMem false (by decide) _
    rw [barsAfter, if_pos ⟨rfl, closed⟩, barsAfter, if_neg fun both => absurd both.1 (by decide),
      barsAfter_append, inner, blank, Nat.zero_add, Nat.add_zero]
    rfl
  · have last : front ++ '|' :: ' ' :: (s.toList ++ [' ']) =
        front ++ '|' :: ' ' :: s.toList ++ [' '] := by simp
    rw [last, escapes_concat]
    rfl

theorem openBars_rowLine {cells : List String} (some_cell : cells ≠ []) :
    openBars (rowLine cells) = cells.length + 1 + (cells.map openBars).sum := by
  have body : ∀ front : List Char, escapes front = false →
      barsAfter false front
        ((cells.flatMap fun s => '|' :: ' ' :: (s.toList ++ [' '])) ++ ['|']) =
        cells.length + 1 + (cells.map openBars).sum := by
    induction cells with
    | nil => exact absurd rfl some_cell
    | cons s rest ih =>
      intro front closed
      obtain ⟨here, after⟩ := barsAfter_cell closed s
      rw [List.flatMap_cons, List.append_assoc, barsAfter_append, here, List.length_cons,
        List.map_cons, List.sum_cons]
      cases rest with
      | nil => simp [barsAfter, after]; omega
      | cons t rest =>
        rw [ih (by simp) _ after]
        omega
  rw [openBars, toList_rowLine some_cell]
  exact body [] rfl

theorem isLine_rowLine {cells : List String} (some_cell : cells ≠ [])
    (each : ∀ s ∈ cells, IsLine s) : IsLine (rowLine cells) := by
  intro c inside
  rw [toList_rowLine some_cell, List.mem_append, List.mem_flatMap] at inside
  rcases inside with ⟨s, member, written⟩ | bar
  · simp only [List.mem_cons, List.mem_append, List.not_mem_nil, or_false] at written
    rcases written with rfl | rfl | written | rfl
    · decide
    · decide
    · exact each s member c written
    · decide
  · rw [List.mem_singleton.mp bar]
    decide

private theorem sum_openBars_of_plain {cells : List String} (plain : ∀ s ∈ cells, IsPlain s) :
    (cells.map openBars).sum = 0 := by
  rw [List.sum_eq_zero_iff_forall_eq_nat]
  intro n member
  obtain ⟨s, inside, rfl⟩ := List.mem_map.mp member
  exact (plain s inside).openBars_eq_zero

private theorem named_rowLine {names : List String} (some_name : names ≠ [])
    (plain : ∀ s ∈ names, IsPlain s) :
    IsLine (rowLine names) ∧ openBars (rowLine names) = names.length + 1 := by
  refine ⟨isLine_rowLine some_name fun s member => (plain s member).isLine, ?_⟩
  rw [openBars_rowLine some_name, sum_openBars_of_plain plain, Nat.add_zero]

/-- A line of a table with so many columns, whose first cell holds a text. -/
structure IsRowOf (columns : Nat) (id line : String) : Prop where
  isLine : IsLine line
  starts : ∃ others, line = "| " ++ cell id ++ " | " ++ others
  openBars_eq : openBars line = columns + 1 + escapedBars id
  openBars_eq_iff : openBars line = columns + 1 ↔ EveryBar false id

theorem isRowOf_rowLine (id : String) {others : List String} (some_other : others ≠ [])
    (plain : ∀ s ∈ others, IsPlain s) :
    IsRowOf (others.length + 1) id (rowLine (cell id :: others)) := by
  have counted : openBars (rowLine (cell id :: others)) =
      others.length + 1 + 1 + escapedBars id := by
    rw [openBars_rowLine (by simp), List.map_cons, List.sum_cons, sum_openBars_of_plain plain,
      openBars_cell, List.length_cons, Nat.add_zero (escapedBars id)]
  refine ⟨?_, ?_, counted, ?_⟩
  · apply isLine_rowLine (by simp)
    rw [List.forall_mem_cons]
    exact ⟨isLine_cell id, fun s member => (plain s member).isLine⟩
  · obtain ⟨s, rest, rfl⟩ := List.exists_cons_of_ne_nil some_other
    refine ⟨Text.join " | " (s :: rest) ++ " |", ?_⟩
    simp [rowLine, Text.join, String.append_assoc]
  · rw [counted, ← escapedBars_eq_zero_iff]
    omega

/-- A table under a title: the names of its columns, a line of dashes, and a row for each of some
texts, with the text in its first cell. -/
def IsTable (title : String) (columns : Nat) (ids : List String) (text : String) : Prop :=
  ∃ names dashes rows,
    text = "## " ++ title ++ "\n\n" ++ String.join ((names :: dashes :: rows).map (· ++ "\n")) ++
      "\n" ∧
    (IsLine names ∧ openBars names = columns + 1) ∧
    (IsLine dashes ∧ openBars dashes = columns + 1) ∧
    List.Forall₂ (IsRowOf columns) ids rows

private theorem plain_conditionCells (s : ConditionSummary) :
    ∀ t ∈ (conditionCells s).tail, IsPlain t := by
  have switch : IsPlain (if s.toolsEnabled then "on" else "off") := by
    cases s.toolsEnabled <;> decide
  simp only [conditionCells, List.tail_cons, List.forall_mem_cons]
  exact ⟨switch, isPlain_toString _, isPlain_percent _, isPlain_percent _, isPlain_percent _,
    isPlain_percent _, isPlain_percent _, isPlain_number _, isPlain_number _, by simp⟩

private theorem plain_taskCells (t : TaskComparison) : ∀ s ∈ (taskCells t).tail, IsPlain s := by
  simp only [taskCells, List.tail_cons, List.forall_mem_cons]
  exact ⟨isPlain_toString _, isPlain_toString _, isPlain_percent _, isPlain_percent _,
    isPlain_status _, by simp⟩

private theorem isTable_rows {α : Type} {id : α → String} {cells : α → List String} {as : List α}
    {title heading dashes dashed text : String} {names : List String} {columns : Nat}
    (written : text = heading ++ row names ++ dashed ++
      String.join (as.map fun a => row (cells a)) ++ "\n")
    (titled : heading = "## " ++ title ++ "\n\n") (underlined : dashed = dashes ++ "\n")
    (named : IsLine (rowLine names) ∧ openBars (rowLine names) = columns + 1)
    (line : IsLine dashes ∧ openBars dashes = columns + 1)
    (each : ∀ a, IsRowOf columns (id a) (rowLine (cells a))) :
    IsTable title columns (as.map id) text := by
  refine ⟨rowLine names, dashes, as.map fun a => rowLine (cells a), ?_, named, line, ?_⟩
  · have rows : (as.map fun a => rowLine (cells a)).map (· ++ "\n") =
        as.map fun a => row (cells a) := by
      rw [List.map_map]
      exact List.map_congr_left fun a _ => (row_eq (cells a)).symm
    rw [written, titled, underlined, row_eq names, List.map_cons, List.map_cons, rows,
      String.join_cons, String.join_cons]
    simp only [String.append_assoc]
  · rw [List.forall₂_map_left_iff, List.forall₂_map_right_iff, List.forall₂_same]
    exact fun a _ => each a

theorem isTable_conditions (summaries : List ConditionSummary) :
    IsTable "Conditions" 10 (summaries.map (·.conditionId)) (conditions summaries) := by
  have written : conditions summaries = "## Conditions\n\n" ++
      row ["Condition", "Tools", "Runs", "Success", "Compile", "Tests", "Tool used",
        "Tool call share", "Helpfulness", "Avg tokens"] ++
      "|---|---|---:|---:|---:|---:|---:|---:|---:|---:|\n" ++
      String.join (summaries.map fun s => row (conditionCells s)) ++ "\n" := rfl
  have dashed : IsLine "|---|---|---:|---:|---:|---:|---:|---:|---:|---:|" ∧
      openBars "|---|---|---:|---:|---:|---:|---:|---:|---:|---:|" = 10 + 1 := by
    decide +kernel
  refine isTable_rows written (by decide +kernel) (by decide +kernel)
    (named_rowLine (by simp) (by decide +kernel)) dashed ?_
  exact fun s => isRowOf_rowLine s.conditionId (by simp [conditionCells]) (plain_conditionCells s)

theorem isTable_tasks (comparisons : List TaskComparison) :
    IsTable "Tasks" 6 (comparisons.map (·.taskId)) (tasks comparisons) := by
  have written : tasks comparisons = "## Tasks\n\n" ++
      row ["Task", "Control runs", "Treatment runs", "Success delta", "Tool usage", "Status"] ++
      "|---|---:|---:|---:|---:|---|\n" ++
      String.join (comparisons.map fun t => row (taskCells t)) ++ "\n" := rfl
  have dashed : IsLine "|---|---:|---:|---:|---:|---|" ∧
      openBars "|---|---:|---:|---:|---:|---|" = 6 + 1 := by
    decide +kernel
  refine isTable_rows written (by decide +kernel) (by decide +kernel)
    (named_rowLine (by simp) (by decide +kernel)) dashed ?_
  exact fun t => isRowOf_rowLine t.taskId (by simp [taskCells]) (plain_taskCells t)

end Rows

/-- A summary has a table of the conditions and one of the tasks.  Each row is one line; it has a
bar more than the table has columns, and one for every bar of its identifier that is escaped
already, so that it is intact exactly when no bar of the identifier is.  The same holds of every
text in a cell. -/
theorem render_rows_intact_iff (score : ScoreReport) (runs : RunReport) (limit : Nat) :
    (∃ conditions tasks,
      render score runs limit = header score runs.validation ++ conditions ++
        primary score.primary ++ tasks ++ issues runs.validation.issues limit ∧
      IsTable "Conditions" 10 (score.summaries.map (·.conditionId)) conditions ∧
      IsTable "Tasks" 6 (score.byTask.map (·.taskId)) tasks) ∧
    ∀ s, IsLine (cell s) ∧ (EveryBar true (cell s) ↔ EveryBar false s) := by
  constructor
  · exact ⟨conditions score.summaries, tasks score.byTask, rfl, isTable_conditions _,
      isTable_tasks _⟩
  · intro s
    exact ⟨isLine_cell s, everyBar_cell_iff s⟩

/-- A condition whose identifier has a bar that is escaped already. -/
private def barred : ConditionSummary :=
  ⟨"a\\|b", "with tools", true, 0, 0, 0, 0, 0.0, 0.0, 0.0, none, 0, 0.0, 0, 0, 0.0, 0, none, none,
    none, none⟩

private def barredScore : ScoreReport :=
  ⟨"exp", "now", "00", 0, false, [barred],
    ⟨none, none, 0, 0, .insufficient ⟨"no runs", none, none, none⟩⟩, [], ⟨"score.json"⟩⟩

private def noRuns : RunReport :=
  ⟨RunValidation.ofRuns ⟨"exp", "", [], [], [], 1⟩ [], ⟨"runs.json"⟩⟩

/-- A bar that is escaped already comes loose in its cell, and its row has a bar too many. -/
theorem not_render_rows_intact :
    ¬ EveryBar true (cell "a\\|b") ∧
    ∃ front line back, render barredScore noRuns 20 = front ++ line ++ "\n" ++ back ∧
      line = "| a\\\\|b | on | 0 | 0.0% | 0.0% | 0.0% | 0.0% | 0.0% | n/a | n/a |" ∧
      openBars line = 12 := by
  constructor
  · intro every
    exact absurd (every ['a', '\\', '\\'] ['b'] (by decide +kernel)) (by decide)
  · let upper := header barredScore noRuns.validation ++ "## Conditions\n\n" ++
      row ["Condition", "Tools", "Runs", "Success", "Compile", "Tests", "Tool used",
        "Tool call share", "Helpfulness", "Avg tokens"] ++
      "|---|---|---:|---:|---:|---:|---:|---:|---:|---:|\n"
    let lower := "\n" ++ primary barredScore.primary ++ tasks barredScore.byTask ++
      issues noRuns.validation.issues 20
    exact ⟨upper, _, lower, by decide +kernel, rfl, by decide +kernel⟩

end ToolTrial.Summary
