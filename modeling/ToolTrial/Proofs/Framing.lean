import ToolTrial.Proofs.Drafting

/-!
What writing drafts into memory leaves alone.  Either some planned run has an identifier that names
no file, and nothing is written, or every planned run has its turn: its draft is written unless
writing is not forced and there is a document at its place, if only one that was written before in
the same go.  Nothing else changes, and doing it again without force changes nothing.
-/

set_option autoImplicit false
set_option relaxedAutoImplicit false

namespace ToolTrial

theorem Identifier.climbs_iff (cs : List Char) : climbs cs = true ↔ ['.', '.'] <:+: cs := by
  fun_induction climbs cs with
  | case1 rest => exact ⟨fun _ => ⟨[], rest, rfl⟩, fun _ => rfl⟩
  | case2 c rest other ih =>
    rw [ih, List.infix_cons_iff]
    constructor
    · exact .inr
    · rintro (⟨more, spelled⟩ | inside)
      · obtain ⟨rfl, rfl⟩ := List.cons.inj spelled
        exact absurd rfl (other more rfl)
      · exact inside
  | case3 => simp

theorem Documents.lookup_congr {path q : Path} (same : path.same q = true) (docs : Documents) :
    lookup path docs = lookup q docs := by
  have steps := (Path.same_iff path q).mp same
  induction docs with
  | nil => rfl
  | cons e docs ih =>
    have alike : e.1.same path = e.1.same q := by
      rw [Bool.eq_iff_iff, Path.same_iff, Path.same_iff, steps]
    rw [lookup, lookup, alike, ih]

namespace Draft

open Attempt
open Store.Kind (inMemory)

/-- An identifier with a separator of either kind or with two full stops in a row. -/
def Strays (id : String) : Prop :=
  '/' ∈ id.toList ∨ '\\' ∈ id.toList ∨ ['.', '.'] <:+: id.toList

theorem strays_iff (id : String) : Strays id ↔ Identifier.fileSafe id = false := by
  rw [← Bool.not_eq_true, Identifier.fileSafe_iff, Strays, ← Identifier.climbs_iff,
    ← Bool.not_eq_true]
  tauto

/-- Every one of some paths is among the written ones or the skipped ones, which keep their order.
One is written exactly when writing is forced, or nothing is held there and no path before it is the
same. -/
def Sorted (force : Bool) (held : Path → Bool) (paths : List Path) (out : Written) : Prop :=
  ∃ decided : List (Path × Bool), decided.map Prod.fst = paths ∧
    out.written = (decided.filter (·.2)).map Prod.fst ∧
    out.skipped = (decided.filter (!·.2)).map Prod.fst ∧
    ∀ front path isWritten back, decided = front ++ (path, isWritten) :: back →
      (isWritten = true ↔ force = true ∨
        (held path = false ∧ ∀ e ∈ front, e.1.same path = false))

private theorem exists_sorted_cons {force : Bool} {held held' : Path → Bool} {path : Path}
    {paths : List Path} {out out' : Written} {isWritten : Bool}
    (others : Sorted force held' paths out)
    (grown : ∀ q, held' q = (path.same q || held q))
    (here : isWritten = true ↔ force = true ∨ held path = false)
    (written : out'.written = if isWritten then path :: out.written else out.written)
    (skipped : out'.skipped = if isWritten then out.skipped else path :: out.skipped) :
    Sorted force held (path :: paths) out' := by
  obtain ⟨decided, listed, writtenThen, skippedThen, rule⟩ := others
  refine ⟨(path, isWritten) :: decided, ?_, ?_, ?_, ?_⟩
  · rw [List.map_cons, listed]
  · rw [written, writtenThen, List.filter_cons]
    cases isWritten <;> rfl
  · rw [skipped, skippedThen, List.filter_cons]
    cases isWritten <;> rfl
  · intro front q isWritten' back split
    cases front with
    | nil =>
      obtain ⟨⟨rfl, rfl⟩, rfl⟩ : (path = q ∧ isWritten = isWritten') ∧ decided = back := by
        simpa using split
      simpa using here
    | cons e front =>
      obtain ⟨rfl, rest⟩ := List.cons.inj split
      rw [rule front q isWritten' back rest, grown, Bool.or_eq_false_iff, List.forall_mem_cons]
      tauto

section Sorted

variable {force : Bool} {held : Path → Bool} {paths : List Path} {out : Written}

/-- Without force nothing is written where something was held. -/
theorem Sorted.not_held (h : Sorted false held paths out) {path : Path}
    (written : path ∈ out.written) : held path = false := by
  obtain ⟨decided, -, writtenThen, -, rule⟩ := h
  rw [writtenThen, List.mem_map] at written
  obtain ⟨⟨path, isWritten⟩, member, rfl⟩ := written
  obtain ⟨inside, done⟩ := List.mem_filter.mp member
  obtain ⟨front, back, split⟩ := List.append_of_mem inside
  exact (((rule front path isWritten back split).mp done).resolve_left Bool.false_ne_true).1

theorem Sorted.skipped_eq_nil (h : Sorted true held paths out) : out.skipped = [] := by
  obtain ⟨decided, -, -, skippedThen, rule⟩ := h
  rw [skippedThen, List.map_eq_nil_iff, List.filter_eq_nil_iff]
  rintro ⟨path, isWritten⟩ inside
  obtain ⟨front, back, split⟩ := List.append_of_mem inside
  simp [(rule front path isWritten back split).mpr (.inl rfl)]

end Sorted

/-- What writing drafts at paths leaves of the documents in memory. -/
structure Leaves (m : Manifest) (dir : Path) (force : Bool) (planned : List PendingRun)
    (w w' : Workspace) (out : Written) : Prop where
  sorted : Sorted force (inMemory.holds w) (planned.map (placeOf dir)) out
  /-- Documents are all that may have changed, and only at paths that were written. -/
  others : { w with documents := w'.documents } = w'
  frame : ∀ q, (∀ path ∈ out.written, path.same q = false) →
    w'.documents.lookup q = w.documents.lookup q
  /-- What is found at a path that was written is a draft that belongs there. -/
  drafts : ∀ q, (∃ path ∈ out.written, path.same q = true) → ∃ p ∈ planned,
    (placeOf dir p).same q = true ∧ w'.documents.lookup q = some (record m p).toJson
  /-- No place is free any more. -/
  taken : ∀ p ∈ planned, inMemory.holds w' (placeOf dir p) = true

section Steps

variable {m : Manifest} {dir : Path} {force : Bool} {p : PendingRun} {planned : List PendingRun}
  {w w' : Workspace} {out : Written}

private theorem holds_of_same {path q : Path} (same : path.same q = true) :
    inMemory.holds w path = inMemory.holds w q :=
  congrArg Option.isSome (Documents.lookup_congr same w.documents)

private theorem Leaves.holds (leaves : Leaves m dir force planned w w' out) {q : Path}
    (held : inMemory.holds w q = true) : inMemory.holds w' q = true := by
  by_cases there : ∃ path ∈ out.written, path.same q = true
  · obtain ⟨p, -, -, found⟩ := leaves.drafts q there
    exact Option.isSome_iff_exists.mpr ⟨_, found⟩
  · have apart : ∀ path ∈ out.written, path.same q = false := by
      intro path member
      simpa using fun equal => there ⟨path, member, equal⟩
    show (w'.documents.lookup q).isSome = true
    rw [leaves.frame q apart]
    exact held

private theorem Leaves.skip (taken : inMemory.holds w (placeOf dir p) = true)
    (leaves : Leaves m dir false planned w w' out) :
    Leaves m dir false (p :: planned) w w'
      { out with skipped := placeOf dir p :: out.skipped } := by
  refine ⟨?_, leaves.others, leaves.frame, ?_, ?_⟩
  · have grown (q : Path) :
        inMemory.holds w q = ((placeOf dir p).same q || inMemory.holds w q) := by
      cases same : (placeOf dir p).same q with
      | false => rfl
      | true => rw [← holds_of_same same, taken, Bool.or_true]
    have here : false = true ↔ false = true ∨ inMemory.holds w (placeOf dir p) = false := by
      simp [taken]
    exact exists_sorted_cons leaves.sorted grown here rfl rfl
  · intro q there
    obtain ⟨p', later, same, found⟩ := leaves.drafts q there
    exact ⟨p', List.mem_cons_of_mem p later, same, found⟩
  · rw [List.forall_mem_cons]
    exact ⟨leaves.holds taken, leaves.taken⟩

private theorem Leaves.save (due : (!force && inMemory.holds w (placeOf dir p)) = false)
    (leaves : Leaves m dir force planned
      { w with documents := w.documents.insert (placeOf dir p) (record m p).toJson } w' out) :
    Leaves m dir force (p :: planned) w w'
      { out with written := placeOf dir p :: out.written } := by
  have saved (q : Path) : (w.documents.insert (placeOf dir p) (record m p).toJson).lookup q =
      if (placeOf dir p).same q then some (record m p).toJson else w.documents.lookup q :=
    Documents.lookup_insert _ _ _ _
  refine ⟨?_, leaves.others, ?_, ?_, ?_⟩
  · have grown (q : Path) : inMemory.holds
        { w with documents := w.documents.insert (placeOf dir p) (record m p).toJson } q =
          ((placeOf dir p).same q || inMemory.holds w q) := by
      show ((w.documents.insert (placeOf dir p) (record m p).toJson).lookup q).isSome = _
      rw [saved]
      cases (placeOf dir p).same q <;> rfl
    have here : true = true ↔ force = true ∨ inMemory.holds w (placeOf dir p) = false := by
      cases force with
      | true => simp
      | false => simpa using due
    exact exists_sorted_cons leaves.sorted grown here rfl rfl
  · intro q apart
    rw [List.forall_mem_cons] at apart
    rw [leaves.frame q apart.2]
    show (w.documents.insert (placeOf dir p) (record m p).toJson).lookup q = _
    rw [saved, if_neg (by simp [apart.1])]
  · intro q there
    by_cases later : ∃ path ∈ out.written, path.same q = true
    · obtain ⟨p', member, same, found⟩ := leaves.drafts q later
      exact ⟨p', List.mem_cons_of_mem p member, same, found⟩
    · have same : (placeOf dir p).same q = true := by
        obtain ⟨path, member, same⟩ := there
        rcases List.mem_cons.mp member with rfl | member
        · exact same
        · exact absurd ⟨path, member, same⟩ later
      refine ⟨p, List.mem_cons_self, same, ?_⟩
      rw [leaves.frame q fun path member => by simpa using fun equal => later ⟨path, member, equal⟩]
      exact (saved q).trans (if_pos same)
  · rw [List.forall_mem_cons]
    refine ⟨leaves.holds ?_, leaves.taken⟩
    have self : (placeOf dir p).same (placeOf dir p) = true := (Path.same_iff _ _).mpr rfl
    exact Option.isSome_iff_exists.mpr ⟨_, (saved _).trans (if_pos self)⟩

end Steps

theorem exists_leaves {m : Manifest} {planned : List PendingRun}
    (drafted : ∀ p ∈ planned, ofPending m p = .ok (record m p)) (dir : Path) (force : Bool)
    (w : Workspace) :
    ∃ out w', (writeAt inMemory.store inMemory.isThere m force
        (planned.map fun p => (p, placeOf dir p))).Gives w out w' ∧
      Leaves m dir force planned w w' out := by
  -- what one draft leaves is where the next one starts
  induction planned generalizing w with
  | nil =>
    refine ⟨⟨[], []⟩, w, rfl, ⟨[], rfl, rfl, rfl, ?_⟩, rfl, fun _ _ => rfl, ?_, ?_⟩
    · simp
    · simp
    · simp
  | cons p planned ih =>
    rw [List.forall_mem_cons] at drafted
    cases due : !force && inMemory.holds w (placeOf dir p) with
    | true =>
      obtain ⟨rfl, taken⟩ : force = false ∧ inMemory.holds w (placeOf dir p) = true := by
        simpa using due
      obtain ⟨out, w', given, leaves⟩ := ih drafted.2 w
      refine ⟨{ out with skipped := placeOf dir p :: out.skipped }, w', ?_, leaves.skip taken⟩
      rw [List.map_cons, Gives, outcome_writeAt_of_holds taken, given]
    | false =>
      obtain ⟨out, w', given, leaves⟩ := ih drafted.2
        { w with documents := w.documents.insert (placeOf dir p) (record m p).toJson }
      refine ⟨{ out with written := placeOf dir p :: out.written }, w', ?_, leaves.save due⟩
      have saves : (inMemory.store.save (placeOf dir p) (record m p).toJson).outcome w =
        (.ok (), { w with documents := w.documents.insert (placeOf dir p) (record m p).toJson }) :=
        rfl
      rw [List.map_cons, Gives, outcome_writeAt_of_due due drafted.1, saves]
      dsimp only
      rw [given]

theorem writeAt_of_taken {m : Manifest} {dir : Path} {planned : List PendingRun} {w : Workspace}
    (taken : ∀ p ∈ planned, inMemory.holds w (placeOf dir p) = true) :
    (writeAt inMemory.store inMemory.isThere m false
      (planned.map fun p => (p, placeOf dir p))).Gives w ⟨[], planned.map (placeOf dir)⟩ w := by
  induction planned with
  | nil => rfl
  | cons p planned ih =>
    rw [List.forall_mem_cons] at taken
    have others := ih taken.2
    rw [List.map_cons, Gives, outcome_writeAt_of_holds taken.1, others]
    rfl

section Missing

variable (m : Manifest) (runs : List Run) (dir : Path) (force : Bool) (w : Workspace)

structure Framed (out : Written) (w' : Workspace) : Prop where
  leaves : Leaves m dir force (Worklist.ofRuns m runs).pendingRuns w w' out
  kept : force = false → ∀ q, inMemory.holds w q = true →
    w'.documents.lookup q = w.documents.lookup q
  forced : force = true → out.skipped = []
  /-- Doing it again without force skips every path and changes nothing. -/
  again : (writeMissing inMemory.store inMemory.isThere m runs dir false).Gives w'
    ⟨[], (Worklist.ofRuns m runs).pendingRuns.map (placeOf dir)⟩ w'

private theorem mapM_eq_error {ε α β : Type} {f : α → Except ε β} {front back : List α} {a : α}
    {e : ε} (fine : ∀ b ∈ front, ∃ c, f b = .ok c) (failed : f a = .error e) :
    (front ++ a :: back).mapM f = .error e := by
  induction front with
  | nil =>
    rw [List.nil_append, List.mapM_cons, failed]
    rfl
  | cons b front ih =>
    rw [List.forall_mem_cons] at fine
    obtain ⟨c, here⟩ := fine.1
    rw [List.cons_append, List.mapM_cons, here, ih fine.2]
    rfl

private theorem outcome_of_strays {front back : List PendingRun} {p : PendingRun}
    (split : (Worklist.ofRuns m runs).pendingRuns = front ++ p :: back) (strays : Strays p.runId)
    (fine : ∀ q ∈ front, ¬ Strays q.runId) :
    (writeMissing inMemory.store inMemory.isThere m runs dir force).outcome w =
      (.error ⟨[.writingDrafts dir], .refusal (.unsafeDraft p.runId dir)⟩, w) := by
  have failed : path dir p.runId = .error (Failure.refuse (.unsafeDraft p.runId dir)) := by
    rw [path, if_pos (by simp [(strays_iff p.runId).mp strays])]
  have before : ∀ q ∈ front, ∃ place, path dir q.runId = .ok place := by
    intro q member
    have pending : q ∈ (Worklist.ofRuns m runs).pendingRuns := by
      rw [split]
      exact List.mem_append_left _ member
    have safe : Identifier.fileSafe q.runId = true := by
      simpa [strays_iff] using fine q member
    exact ⟨_, path_of_safe pending safe dir⟩
  have paths : ((Worklist.ofRuns m runs).pendingRuns.mapM fun q => path dir q.runId) =
      .error (Failure.refuse (.unsafeDraft p.runId dir)) := by
    rw [split]
    exact mapM_eq_error before failed
  rw [writeMissing, write, paths]
  rfl

/-- Writing drafts into memory is all or nothing.  Either the first planned run that strays is
reported and the workspace is as it was, or there is none and the drafts are written; then documents
change at written paths only, and never without force where there was one. -/
theorem writeMissing_frames :
    ((∃ p ∈ (Worklist.ofRuns m runs).pendingRuns, Strays p.runId) →
      ∃ front p back, (Worklist.ofRuns m runs).pendingRuns = front ++ p :: back ∧
        (∀ q ∈ front, ¬ Strays q.runId) ∧ Strays p.runId ∧
        (writeMissing inMemory.store inMemory.isThere m runs dir force).outcome w =
          (.error ⟨[.writingDrafts dir], .refusal (.unsafeDraft p.runId dir)⟩, w)) ∧
    ((∀ p ∈ (Worklist.ofRuns m runs).pendingRuns, ¬ Strays p.runId) →
      ∃ out w', (writeMissing inMemory.store inMemory.isThere m runs dir force).Gives w out w' ∧
        Framed m runs dir force w out w') := by
  constructor
  · rintro ⟨p, pending, strays⟩
    obtain ⟨first, found⟩ : ∃ q, (Worklist.ofRuns m runs).pendingRuns.find?
        (fun q => !Identifier.fileSafe q.runId) = some q := by
      apply Option.isSome_iff_exists.mp
      rw [List.find?_isSome]
      exact ⟨p, pending, by simp [(strays_iff p.runId).mp strays]⟩
    obtain ⟨stray, front, back, split, before⟩ := List.find?_eq_some_iff_append.mp found
    have strays : Strays first.runId := (strays_iff first.runId).mpr (by simpa using stray)
    have fine : ∀ q ∈ front, ¬ Strays q.runId := by
      intro q member
      rw [strays_iff]
      simpa using before q member
    exact ⟨front, first, back, split, fine, strays,
      outcome_of_strays m runs dir force w split strays fine⟩
  · intro fine
    have safe : ∀ p ∈ (Worklist.ofRuns m runs).pendingRuns,
        Identifier.fileSafe p.runId = true := by
      intro p pending
      simpa [strays_iff] using fine p pending
    obtain ⟨out, w', given, leaves⟩ :=
      exists_leaves (fun p pending => ofPending_eq_ok pending) dir force w
    refine ⟨out, w', ?_, leaves, ?_, ?_, ?_⟩
    · rw [writeMissing_of_safe safe, gives_during_iff]
      exact given
    · rintro rfl q held
      apply leaves.frame
      intro path written
      have free := leaves.sorted.not_held written
      by_contra same
      rw [holds_of_same (Bool.not_eq_false _ ▸ same), held] at free
      cases free
    · rintro rfl
      exact leaves.sorted.skipped_eq_nil
    · rw [writeMissing_of_safe safe, gives_during_iff]
      exact writeAt_of_taken leaves.taken

end Missing

/-- Two planned runs of one name: the second one finds the draft of the first in its place. -/
example : ((writeMissing inMemory.store inMemory.isThere
    { Manifest.pair with
      conditions := [⟨"b__c", "", false, none⟩, ⟨"c", "", true, none⟩]
      tasks := [⟨"a", "A", "repo", "abc", ["make"], none, none⟩,
        ⟨"a__b", "B", "repo", "abc", ["make"], none, none⟩]
      runsPerCell := 1 } [] ⟨"d"⟩ false).outcome ⟨Disk.empty ["work"], [], "now", 0⟩).1.toOption =
    some ⟨[⟨"d/a__b__c__r01.json"⟩, ⟨"d/a__c__r01.json"⟩, ⟨"d/a__b__b__c__r01.json"⟩],
      [⟨"d/a__b__c__r01.json"⟩]⟩ := by
  decide +kernel

end Draft
end ToolTrial
