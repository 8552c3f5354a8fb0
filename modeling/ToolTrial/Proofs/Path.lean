import ToolTrial.Path.Basic

/-!
The entries of a directory.  A name adds one step to the steps of a directory, whatever idle pieces
the directory is written with, and the path without that step leads back to the directory.
-/

set_option autoImplicit false
set_option relaxedAutoImplicit false

namespace ToolTrial.Path

/-- A text that is a step of its own kind: one name. -/
structure IsName (name : String) : Prop where
  noSeparator : '/' ∉ name.toList
  notIdle : isIdle name.toList = false
  notParent : name.toList ≠ ['.', '.']

theorem isName_append {stem ending : String} (noSeparator : '/' ∉ stem.toList)
    (noSeparator' : '/' ∉ ending.toList) (long : 2 < ending.toList.length) :
    IsName (stem ++ ending) := by
  have length : 2 < (stem ++ ending).toList.length := by
    rw [String.toList_append, List.length_append]
    omega
  refine ⟨?_, ?_, ?_⟩
  · rw [String.toList_append, List.mem_append, not_or]
    exact ⟨noSeparator, noSeparator'⟩
  · have notEmpty : (stem ++ ending).toList ≠ [] := by
      intro equal
      simp [equal] at length
    have notDot : (stem ++ ending).toList ≠ ['.'] := by
      intro equal
      simp [equal] at length
    simp only [isIdle, Bool.or_eq_false_iff, beq_eq_false_iff_ne]
    exact ⟨notEmpty, notDot⟩
  · intro equal
    simp [equal] at length

private theorem split_of_not_mem {cs : List Char} (h : '/' ∉ cs) : split cs = (cs, []) := by
  induction cs with
  | nil => rfl
  | cons c cs ih =>
    rw [List.mem_cons, not_or] at h
    rw [split, ih h.2]
    exact if_neg (Ne.symm h.1)

private theorem split_append (as bs : List Char) :
    split (as ++ '/' :: bs) =
      ((split as).1, (split as).2 ++ (split bs).1 :: (split bs).2) := by
  induction as with
  | nil => simp [split]
  | cons a as ih =>
    rw [List.cons_append, split, split, ih]
    by_cases separator : a = '/' <;> simp [separator]

private theorem split_not_mem (cs : List Char) :
    '/' ∉ (split cs).1 ∧ ∀ piece ∈ (split cs).2, '/' ∉ piece := by
  induction cs with
  | nil => simp [split]
  | cons c cs ih =>
    rw [split]
    by_cases separator : c = '/'
    · simpa [separator] using ih
    · simpa [separator, Ne.symm separator] using ih

private theorem split_subset (cs : List Char) :
    (split cs).1 ⊆ cs ∧ ∀ piece ∈ (split cs).2, piece ⊆ cs := by
  induction cs with
  | nil => simp [split]
  | cons c cs ih =>
    have later {piece : List Char} (inside : piece ⊆ cs) : piece ⊆ c :: cs :=
      fun _ member => List.mem_cons_of_mem c (inside member)
    have first : split (c :: cs) = if c = '/' then ([], (split cs).1 :: (split cs).2) else
        (c :: (split cs).1, (split cs).2) := rfl
    rw [first]
    split
    · refine ⟨List.nil_subset _, ?_⟩
      rw [List.forall_mem_cons]
      exact ⟨later ih.1, fun piece member => later (ih.2 piece member)⟩
    · exact ⟨List.cons_subset_cons c ih.1, fun piece member => later (ih.2 piece member)⟩

private theorem split_glued {first : List Char} {rest : List (List Char)} (h : '/' ∉ first)
    (hs : ∀ piece ∈ rest, '/' ∉ piece) :
    split (first ++ rest.flatMap fun piece => '/' :: piece) = (first, rest) := by
  induction rest generalizing first with
  | nil => simpa using split_of_not_mem h
  | cons piece rest ih =>
    rw [List.forall_mem_cons] at hs
    rw [List.flatMap_cons, List.cons_append, split_append, split_of_not_mem h, ih hs.1 hs.2]
    rfl

private def stepsOf (lead : List Char) (tail : List (List Char)) : List Component :=
  (if lead = [] then if tail = [] then [] else [.root] else [step lead]) ++
    (tail.filter fun piece => !isIdle piece).map step

private theorem isAbsolute_iff_pieces (p : Path) :
    p.isAbsolute = true ↔ p.lead = [] ∧ p.tail ≠ [] := by
  unfold isAbsolute lead tail
  cases p.text.toList with
  | nil => simp [split]
  | cons c cs =>
    rw [split]
    by_cases separator : c = '/' <;> simp [separator]

private theorem components_eq_stepsOf (p : Path) : p.components = stepsOf p.lead p.tail := by
  have absolute := isAbsolute_iff_pieces p
  rw [components, stepsOf]
  congr 1
  by_cases isAbsolute : p.isAbsolute = true
  · obtain ⟨noLead, tail⟩ := absolute.mp isAbsolute
    rw [if_pos isAbsolute, if_pos noLead, if_neg tail]
  · have relative := mt absolute.mpr isAbsolute
    rw [if_neg isAbsolute]
    by_cases noLead : p.lead = []
    · have noTail : p.tail = [] := Decidable.byContradiction fun tail => relative ⟨noLead, tail⟩
      rw [noLead, noTail]
      rfl
    · rw [if_neg noLead, if_neg (by simpa using noLead)]

private theorem stepsOf_eq {lead : List Char} {tail : List (List Char)}
    (given : ¬ (lead = [] ∧ tail = [])) : stepsOf lead tail =
      (if lead = [] then .root else step lead) ::
        (tail.filter fun piece => !isIdle piece).map step := by
  rw [stepsOf]
  by_cases noLead : lead = []
  · have someTail : tail ≠ [] := fun nil => given ⟨noLead, nil⟩
    rw [if_pos noLead, if_pos noLead, if_neg someTail]
    rfl
  · rw [if_neg noLead, if_neg noLead]
    rfl

private theorem filter_solid (pieces : List (List Char)) :
    (solid pieces).filter (fun piece => !isIdle piece) =
      pieces.filter fun piece => !isIdle piece := by
  have dropped (back : List (List Char)) :
      (back.dropWhile isIdle).filter (fun piece => !isIdle piece) =
        back.filter fun piece => !isIdle piece := by
    induction back with
    | nil => rfl
    | cons piece rest ih =>
      cases idle : isIdle piece <;> simp [idle, ih]
  rw [solid, List.filter_reverse, dropped, List.filter_reverse, List.reverse_reverse]

private theorem mem_of_mem_solid {piece : List Char} {pieces : List (List Char)}
    (member : piece ∈ solid pieces) : piece ∈ pieces := by
  rw [solid, List.mem_reverse] at member
  exact List.mem_reverse.mp ((List.dropWhile_sublist _).subset member)

private theorem solid_append_name {name : List Char} (notIdle : isIdle name = false)
    (pieces : List (List Char)) : solid (pieces ++ [name]) = pieces ++ [name] := by
  simp [solid, notIdle]

private theorem pieces_child {dir : Path} (given : dir.text ≠ "") {name : String}
    (h : IsName name) : ∃ front ending, (ending.filter fun piece => !isIdle piece) = [] ∧
      dir.tail = front ++ ending ∧ (dir.child name).lead = dir.lead ∧
      (dir.child name).tail = front ++ [name.toList] := by
  have relative : (⟨name⟩ : Path).isAbsolute = false := by
    have noSeparator := h.noSeparator
    unfold isAbsolute
    cases chars : name.toList with
    | nil => rfl
    | cons c cs =>
      rw [chars, List.mem_cons, not_or] at noSeparator
      simp [Ne.symm noSeparator.1]
  have nonempty : dir.text.isEmpty = false := by simpa using given
  have single := split_of_not_mem h.noSeparator
  by_cases closed : dir.text.toList.getLast? = some '/'
  · obtain ⟨front, chars⟩ := List.getLast?_eq_some_iff.mp closed
    have text : (dir.child name).text.toList = front ++ '/' :: name.toList := by
      simp [child, join, relative, nonempty, chars]
    refine ⟨(split front).2, [[]], rfl, ?_, ?_, ?_⟩
    · rw [tail, chars, split_append]
      rfl
    · rw [lead, lead, text, chars, split_append, split_append]
    · rw [tail, text, split_append, single]
  · have text : (dir.child name).text.toList = dir.text.toList ++ '/' :: name.toList := by
      simp [child, join, relative, nonempty, closed]
    refine ⟨dir.tail, [], rfl, by simp, ?_, ?_⟩
    · rw [lead, lead, text, split_append]
    · rw [tail, tail, text, split_append, single]

private theorem child_of_empty {dir : Path} (empty : dir.text = "") (name : String) :
    dir.child name = ⟨name⟩ := by
  simp [child, join, empty]

private theorem lead_ne_nil_or_tail_ne_nil {dir : Path} (given : dir.text ≠ "") :
    ¬ (dir.lead = [] ∧ dir.tail = []) := by
  unfold lead tail
  have chars : dir.text.toList ≠ [] := by simpa using given
  cases spelled : dir.text.toList with
  | nil => exact absurd spelled chars
  | cons c cs =>
    rw [split]
    by_cases separator : c = '/' <;> simp [separator]

theorem components_eq_nil_iff (p : Path) : p.components = [] ↔ p.text = "" := by
  constructor
  · intro nowhere
    refine Decidable.byContradiction fun given => ?_
    rw [components_eq_stepsOf, stepsOf_eq (lead_ne_nil_or_tail_ne_nil given)] at nowhere
    cases nowhere
  · intro empty
    obtain ⟨text⟩ := p
    obtain rfl : text = "" := empty
    rfl

private theorem step_name {name : String} (h : IsName name) :
    step name.toList = .name name := by
  have notDot : name.toList ≠ ['.'] := by
    intro dot
    simpa [isIdle, dot] using h.notIdle
  rw [step, if_neg h.notParent, if_neg notDot, String.ofList_toList]

theorem components_child (dir : Path) {name : String} (h : IsName name) :
    (dir.child name).components = dir.components ++ [.name name] := by
  have notIdle := h.notIdle
  by_cases empty : dir.text = ""
  · have nonempty : name.toList ≠ [] := by
      intro nil
      simp [isIdle, nil] at notIdle
    have single := split_of_not_mem h.noSeparator
    rw [child_of_empty empty, components_eq_stepsOf, components_eq_stepsOf]
    simp [stepsOf, lead, tail, single, empty, nonempty, split, step_name h]
  · obtain ⟨front, ending, noEnding, tail, lead, childTail⟩ := pieces_child empty h
    have start := lead_ne_nil_or_tail_ne_nil empty
    rw [tail] at start
    rw [components_eq_stepsOf, components_eq_stepsOf, lead, childTail, tail, stepsOf_eq start,
      stepsOf_eq (by simp), List.filter_append, List.filter_append, noEnding]
    simp [notIdle, step_name h]

theorem isAbsolute_iff_head? (p : Path) :
    p.isAbsolute = true ↔ p.components.head? = some .root := by
  have relative (piece : List Char) : step piece ≠ .root := by
    unfold step
    split
    · simp
    · split <;> simp
  rw [isAbsolute_iff_pieces, components_eq_stepsOf, stepsOf]
  by_cases noLead : p.lead = []
  · by_cases noTail : p.tail = []
    · simp [noLead, noTail]
    · simp [noLead, noTail]
  · simp [noLead, relative]

theorem isAbsolute_congr {p q : Path} (equal : p.components = q.components) :
    p.isAbsolute = q.isAbsolute := by
  rw [Bool.eq_iff_iff, isAbsolute_iff_head?, isAbsolute_iff_head?, equal]

theorem isAbsolute_of_components_eq {p upper : Path} {name : String}
    (steps : p.components = upper.components ++ [.name name]) :
    p.isAbsolute = upper.isAbsolute := by
  rw [Bool.eq_iff_iff, isAbsolute_iff_head?, isAbsolute_iff_head?, steps]
  cases upper.components <;> simp

theorem same_iff (p q : Path) : p.same q = true ↔ p.components = q.components := by
  rw [same, beq_iff_eq]

theorem fileName?_child (dir : Path) {name : String} (h : IsName name) :
    (dir.child name).fileName? = some name := by
  rw [fileName?, components_child dir h, List.getLast?_concat]

/-- Paths of entries of one directory are the same place only when the names are the same. -/
theorem same_child_iff (dir : Path) {name other : String} (h : IsName name) (h' : IsName other) :
    (dir.child name).same (dir.child other) = true ↔ name = other := by
  rw [same_iff, components_child dir h, components_child dir h']
  simp

theorem asksForDirectory_child (dir : Path) {name : String} (h : IsName name) :
    (dir.child name).asksForDirectory = false := by
  have single := split_of_not_mem h.noSeparator
  by_cases empty : dir.text = ""
  · simp [child_of_empty empty, asksForDirectory, tail, single]
  · obtain ⟨front, -, -, -, -, pieces⟩ := pieces_child empty h
    simp [asksForDirectory, pieces, h.notIdle]

private theorem pieces_glue {lead : List Char} {tail : List (List Char)} (h : '/' ∉ lead)
    (hs : ∀ piece ∈ tail, '/' ∉ piece) :
    (glue lead tail).lead = lead ∧ (glue lead tail).tail = tail := by
  have pieces : split (glue lead tail).text.toList = (lead, tail) := by
    rw [glue, String.toList_ofList]
    exact split_glued h hs
  rw [Path.lead, Path.tail, pieces]
  exact ⟨rfl, rfl⟩

private theorem parent?_of_solid_eq {p : Path} {front : List (List Char)} {name : List Char}
    (pieces : solid p.tail = front ++ [name]) : p.parent? = some
      (if (solid front).isEmpty && p.lead.isEmpty then ⟨"/"⟩ else glue p.lead (solid front)) := by
  rw [parent?, pieces]
  cases front with
  | nil => rfl
  | cons piece rest =>
    rw [List.cons_append]
    dsimp only
    rw [← List.cons_append, List.dropLast_concat]

private theorem components_upper {lead : List Char} {front : List (List Char)} (h : '/' ∉ lead)
    (hs : ∀ piece ∈ front, '/' ∉ piece) :
    (if (solid front).isEmpty && lead.isEmpty then (⟨"/"⟩ : Path)
      else glue lead (solid front)).components =
        (if lead = [] then .root else step lead) ::
          (front.filter fun piece => !isIdle piece).map step := by
  rw [← filter_solid front]
  by_cases top : ((solid front).isEmpty && lead.isEmpty) = true
  · rw [if_pos top]
    simp only [Bool.and_eq_true, List.isEmpty_iff] at top
    rw [top.1, if_pos top.2]
    decide
  · obtain ⟨glueLead, glueTail⟩ := pieces_glue h fun piece member =>
      hs piece (mem_of_mem_solid member)
    have given : ¬ (lead = [] ∧ solid front = []) := by
      rintro ⟨noLead, noFront⟩
      simp [noLead, noFront] at top
    rw [if_neg top, components_eq_stepsOf, glueLead, glueTail, stepsOf_eq given]

theorem parent?_child (dir : Path) {name : String} (h : IsName name) :
    ∃ upper, (dir.child name).parent? = some upper ∧ upper.components = dir.components := by
  have notIdle := h.notIdle
  by_cases empty : dir.text = ""
  · have nonempty : name.toList ≠ [] := by
      intro nil
      simp [isIdle, nil] at notIdle
    have single := split_of_not_mem h.noSeparator
    refine ⟨⟨""⟩, ?_, ?_⟩
    · rw [child_of_empty empty]
      simp [parent?, lead, tail, single, solid, nonempty]
    · rw [components_eq_stepsOf, components_eq_stepsOf]
      simp [lead, tail, empty]
  · obtain ⟨front, ending, noEnding, tail, lead, childTail⟩ := pieces_child empty h
    have start := lead_ne_nil_or_tail_ne_nil empty
    have noSeparator : '/' ∉ dir.lead ∧ ∀ piece ∈ dir.tail, '/' ∉ piece :=
      split_not_mem dir.text.toList
    have inFront : ∀ piece ∈ front, '/' ∉ piece := by
      intro piece member
      apply noSeparator.2
      rw [tail]
      exact List.mem_append_left _ member
    have pieces : solid (dir.child name).tail = front ++ [name.toList] := by
      rw [childTail, solid_append_name notIdle]
    refine ⟨_, parent?_of_solid_eq pieces, ?_⟩
    rw [tail] at start
    rw [lead, components_upper noSeparator.1 inFront, components_eq_stepsOf, tail, stepsOf_eq start,
      List.filter_append, noEnding, List.append_nil]

theorem withFileName_eq_child {p upper : Path} (parent : p.parent? = some upper) (name : String) :
    p.withFileName name = upper.child name := by
  rw [withFileName, parent]
  rfl

private theorem eq_name_of_step {piece : List Char} {name : String} (h : step piece = .name name) :
    name.toList = piece := by
  unfold step at h
  split at h
  · cases h
  · split at h
    · cases h
    · cases h
      exact String.toList_ofList

private theorem isName_of_step {piece : List Char} {name : String} (noSeparator : '/' ∉ piece)
    (given : piece ≠ []) (h : step piece = .name name) : IsName name := by
  have same := eq_name_of_step h
  unfold step at h
  split at h
  · cases h
  · rename_i notParent
    split at h
    · cases h
    · rename_i notDot
      rw [← same] at noSeparator given notParent notDot
      exact ⟨noSeparator, by simp [isIdle, given, notDot], notParent⟩

theorem isName_of_mem_components {p : Path} {name : String}
    (member : .name name ∈ p.components) : IsName name ∧ name.toList ⊆ p.text.toList := by
  have noSeparator : '/' ∉ p.lead ∧ ∀ piece ∈ p.tail, '/' ∉ piece := split_not_mem p.text.toList
  have inside : p.lead ⊆ p.text.toList ∧ ∀ piece ∈ p.tail, piece ⊆ p.text.toList :=
    split_subset p.text.toList
  rw [components_eq_stepsOf, stepsOf, List.mem_append] at member
  rcases member with first | later
  · by_cases noLead : p.lead = []
    · rw [if_pos noLead] at first
      split at first <;> simp at first
    · rw [if_neg noLead, List.mem_singleton] at first
      refine ⟨isName_of_step noSeparator.1 noLead first.symm, ?_⟩
      rw [eq_name_of_step first.symm]
      exact inside.1
  · obtain ⟨piece, kept, named⟩ := List.mem_map.mp later
    obtain ⟨there, solid⟩ := List.mem_filter.mp kept
    have given : piece ≠ [] := by
      rintro rfl
      simp [isIdle] at solid
    refine ⟨isName_of_step (noSeparator.2 piece there) given named, ?_⟩
    rw [eq_name_of_step named]
    exact inside.2 piece there

/-- The way to something below a directory goes through the names of that. -/
theorem components_descend (dir : Path) {relative : List String}
    (names : ∀ name ∈ relative, IsName name) :
    (relative.foldl child dir).components = dir.components ++ relative.map .name := by
  induction relative generalizing dir with
  | nil => simp
  | cons name relative ih =>
    rw [List.forall_mem_cons] at names
    rw [List.foldl_cons, ih _ names.2, components_child dir names.1, List.append_assoc]
    rfl

theorem mem_text_child {dir : Path} {name : String} {c : Char}
    (member : c ∈ (dir.child name).text.toList) :
    c ∈ dir.text.toList ∨ c = '/' ∨ c ∈ name.toList := by
  unfold child join at member
  split at member
  · exact Or.inr (Or.inr member)
  · split at member
    all_goals simp only [String.toList_append, List.mem_append] at member
    · rcases member with here | there
      · exact Or.inl here
      · exact Or.inr (Or.inr there)
    · rcases member with (here | between) | there
      · exact Or.inl here
      · exact Or.inr (Or.inl (by simpa using between))
      · exact Or.inr (Or.inr there)

theorem mem_text_descend {dir : Path} {relative : List String} {c : Char}
    (member : c ∈ (relative.foldl child dir).text.toList) :
    c ∈ dir.text.toList ∨ c = '/' ∨ ∃ name ∈ relative, c ∈ name.toList := by
  induction relative generalizing dir with
  | nil => exact Or.inl member
  | cons name relative ih =>
    rcases ih member with here | separator | ⟨other, below, there⟩
    · rcases mem_text_child here with above | separator | there
      · exact Or.inl above
      · exact Or.inr (Or.inl separator)
      · exact Or.inr (Or.inr ⟨name, List.mem_cons_self, there⟩)
    · exact Or.inr (Or.inl separator)
    · exact Or.inr (Or.inr ⟨other, List.mem_cons_of_mem _ below, there⟩)

theorem parent?_of_fileName? {p : Path} {name : String} (ends : p.fileName? = some name) :
    ∃ upper, p.parent? = some upper ∧ p.components = upper.components ++ [.name name] ∧
      '/' ∉ name.toList := by
  have noSeparator : '/' ∉ p.lead ∧ ∀ piece ∈ p.tail, '/' ∉ piece := split_not_mem p.text.toList
  have last : p.components.getLast? = some (.name name) := by
    unfold fileName? at ends
    split at ends
    · rename_i s found
      rw [found, Option.some.inj ends]
    · cases ends
  have kept := filter_solid p.tail
  rcases List.eq_nil_or_concat (solid p.tail) with none | ⟨front, piece, pieces⟩
  · rw [none, List.filter_nil] at kept
    rw [components_eq_stepsOf, stepsOf, ← kept, List.map_nil, List.append_nil] at last ⊢
    by_cases noLead : p.lead = []
    · rw [if_pos noLead] at last
      split at last <;> simp at last
    · rw [if_neg noLead] at last ⊢
      have named : step p.lead = .name name := by simpa using last
      refine ⟨⟨""⟩, ?_, ?_, ?_⟩
      · rw [parent?, none]
        simp [noLead]
      · rw [named]
        rfl
      · rw [eq_name_of_step named]
        exact noSeparator.1
  · rw [List.concat_eq_append] at pieces
    have notIdle : isIdle piece = false := by
      have rest : p.tail.reverse.dropWhile isIdle = piece :: front.reverse := by
        have reversed := congrArg List.reverse pieces
        simpa [solid] using reversed
      have head := List.head?_dropWhile_not isIdle p.tail.reverse
      simpa [rest] using head
    have inPieces : ∀ other ∈ front ++ [piece], '/' ∉ other := by
      intro other member
      apply noSeparator.2
      apply mem_of_mem_solid
      rwa [pieces]
    have inFront : ∀ other ∈ front, '/' ∉ other :=
      fun other member => inPieces other (List.mem_append_left _ member)
    have given : ¬ (p.lead = [] ∧ p.tail = []) := by
      rintro ⟨-, noTail⟩
      simp [noTail, solid] at pieces
    have steps : p.components = ((if p.lead = [] then .root else step p.lead) ::
        (front.filter fun piece => !isIdle piece).map step) ++ [step piece] := by
      rw [components_eq_stepsOf, stepsOf_eq given, ← kept, pieces]
      simp [notIdle]
    rw [steps, List.getLast?_concat] at last
    have named := Option.some.inj last
    refine ⟨_, parent?_of_solid_eq pieces, ?_, ?_⟩
    · rw [components_upper noSeparator.1 inFront, steps, named]
    · rw [eq_name_of_step named]
      exact inPieces piece (List.mem_append_right _ List.mem_cons_self)

end ToolTrial.Path
