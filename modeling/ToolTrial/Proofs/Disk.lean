import ToolTrial.Disk.Basic
import ToolTrial.Proofs.Attempt
import ToolTrial.Proofs.Path

/-!
What the operations on a disk do.  Each is described by what its success means: where its path
leads, what is there, and which disk it leaves.  A path leads to the same place on every disk that
keeps the directories.
-/

set_option autoImplicit false
set_option relaxedAutoImplicit false

namespace ToolTrial.Disk

section Entries

theorem lookup_setEntry (place q : Location) (entry : Entry) (entries : List (Location × Entry)) :
    (setEntry place entry entries).lookup q =
      if q = place then some entry else entries.lookup q := by
  induction entries with
  | nil =>
    by_cases here : q = place
    · simp [setEntry, here]
    · have apart : (q == place) = false := by simpa using here
      simp [setEntry, here, List.lookup_cons, apart]
  | cons e entries ih =>
    obtain ⟨p, old⟩ := e
    rw [setEntry]
    split
    · rename_i there
      subst there
      by_cases here : q = p
      · simp [here]
      · have apart : (q == p) = false := by simpa using here
        simp [here, List.lookup_cons, apart]
    · rename_i elsewhere
      by_cases there : q = p
      · subst there
        simp [elsewhere]
      · have apart : (q == p) = false := by simpa using there
        simp only [List.lookup_cons, apart, ih]

theorem setEntry_of_lookup_eq_none {place : Location} {entries : List (Location × Entry)}
    (new : entries.lookup place = none) (entry : Entry) :
    setEntry place entry entries = entries ++ [(place, entry)] := by
  induction entries with
  | nil => rfl
  | cons e entries ih =>
    obtain ⟨p, old⟩ := e
    simp only [List.lookup_eq_none_iff, List.forall_mem_cons, bne_iff_ne] at new ih
    rw [setEntry, if_neg (Ne.symm new.1), ih new.2]
    rfl

theorem filter_setEntry (place : Location) (entry : Entry) (entries : List (Location × Entry)) :
    (setEntry place entry entries).filter (fun e => e.1 ≠ place) =
      entries.filter fun e => e.1 ≠ place := by
  induction entries with
  | nil => simp [setEntry]
  | cons e entries ih =>
    obtain ⟨p, old⟩ := e
    rw [setEntry]
    split
    · rename_i there
      simp [there]
    · rename_i elsewhere
      simp only [List.filter_cons, ih]

theorem setEntry_setEntry (place : Location) (first second : Entry)
    (entries : List (Location × Entry)) :
    setEntry place second (setEntry place first entries) = setEntry place second entries := by
  induction entries with
  | nil => simp [setEntry]
  | cons e entries ih =>
    obtain ⟨p, old⟩ := e
    by_cases here : p = place <;> simp [setEntry, here, ih]

theorem lookup_filter_ne {place q : Location} (apart : q ≠ place)
    (entries : List (Location × Entry)) :
    (entries.filter fun e => e.1 ≠ place).lookup q = entries.lookup q := by
  induction entries with
  | nil => rfl
  | cons e entries ih =>
    obtain ⟨p, entry⟩ := e
    by_cases here : p = place
    · have past : (q == p) = false := by simpa [here] using apart
      rw [List.filter_cons_of_neg (by simpa using here), List.lookup_cons, past, ih]
    · rw [List.filter_cons_of_pos (by simpa using here), List.lookup_cons, List.lookup_cons, ih]

variable (d : Disk) (place q : Location)

theorem lookup_put (given : place ≠ []) (entry : Entry) :
    (d.put place entry).lookup q = if q = place then some entry else d.lookup q := by
  unfold put lookup
  by_cases root : q = []
  · subst root
    simp [Ne.symm given]
  · simp only [if_neg root, lookup_setEntry]

theorem lookup_erase (given : place ≠ []) :
    (d.erase place).lookup q = if q = place then none else d.lookup q := by
  unfold erase lookup
  by_cases here : q = place
  · subst here
    rw [if_neg given, if_pos rfl, List.lookup_eq_none_iff]
    intro e member
    have apart : e.1 ≠ q := by simpa using (List.mem_filter.mp member).2
    simpa using apart.symm
  · rw [if_neg here, lookup_filter_ne here]

theorem ne_root_of_free {d : Disk} {place : Location} (free : d.lookup place ≠ some .directory) :
    place ≠ [] := by
  rintro rfl
  exact free (if_pos rfl)

theorem free_erase {d : Disk} {place q : Location} (free : d.lookup place ≠ some .directory)
    (free' : d.lookup q ≠ some .directory) : (d.erase place).lookup q ≠ some .directory := by
  rw [lookup_erase _ _ _ (ne_root_of_free free)]
  split
  · simp
  · exact free'

theorem put_put (d : Disk) (place : Location) (first second : Entry) :
    (d.put place first).put place second = d.put place second := by
  simp only [put, setEntry_setEntry]

end Entries

section Walks

theorem walk_append (d : Disk) (place : Location) (steps more : List Path.Component) :
    d.walk place (steps ++ more) = d.walk place steps >>= fun q => d.walk q more := by
  induction steps generalizing place with
  | nil => rfl
  | cons step steps ih =>
    simp only [List.cons_append, walk]
    rcases d.lookup place with _ | _ | _
    · rfl
    · cases step with
      | name s =>
        dsimp only
        split
        · rfl
        · exact ih _
      | _ => exact ih _
    · rfl

theorem walk_eq_ok_of_keeps {d d' : Disk}
    (keeps : ∀ p, d.lookup p = some .directory → d'.lookup p = some .directory)
    {steps : List Path.Component} {place q : Location} (leads : d.walk place steps = .ok q) :
    d'.walk place steps = .ok q := by
  induction steps generalizing place with
  | nil => exact leads
  | cons step steps ih =>
    simp only [walk] at leads ⊢
    rcases found : d.lookup place with _ | _ | _
    · simp [found] at leads
    · rw [keeps place found]
      rw [found] at leads
      cases step with
      | name s =>
        dsimp only at leads ⊢
        split at leads
        · simp at leads
        · rename_i short
          rw [if_neg short]
          exact ih leads
      | _ => exact ih leads
    · simp [found] at leads

theorem walk_name_eq_ok_iff (d : Disk) (place q : Location) (name : String) :
    d.walk place [.name name] = .ok q ↔
      d.lookup place = some .directory ∧ name.utf8ByteSize ≤ nameLimit ∧ q = place ++ [name] := by
  simp only [walk]
  rcases d.lookup place with _ | _ | _
  · simp
  · by_cases long : nameLimit < name.utf8ByteSize
    · simp [long, Nat.not_le_of_lt long]
    · simp [long, Nat.le_of_not_lt long, eq_comm]
  · simp

end Walks

/-- The steps of a path lead to a place. -/
def Leads (d : Disk) (p : Path) (place : Location) : Prop :=
  d.walk (if p.isAbsolute then [] else d.workplace) p.components = .ok place

section Paths

variable {d d' : Disk}

theorem Leads.unique {p : Path} {place other : Location} (h : d.Leads p place)
    (h' : d.Leads p other) : place = other := by
  have equal := h.symm.trans h'
  simpa using equal

/-- Texts with the same steps lead to the same place. -/
theorem leads_congr {p q : Path} (equal : p.components = q.components) (place : Location) :
    d.Leads p place ↔ d.Leads q place := by
  rw [Leads, Leads, Path.isAbsolute_congr equal, equal]

theorem leads_iff_of_components_eq {p upper : Path} {name : String}
    (steps : p.components = upper.components ++ [.name name]) (q : Location) :
    d.Leads p q ↔ ∃ place, d.Leads upper place ∧
      d.lookup place = some .directory ∧ name.utf8ByteSize ≤ nameLimit ∧ q = place ++ [name] := by
  rw [Leads, Path.isAbsolute_of_components_eq steps, steps, walk_append, bind_eq_ok_iff]
  simp only [walk_name_eq_ok_iff]
  rfl

theorem leads_child_iff (dir : Path) {name : String} (h : Path.IsName name) (q : Location) :
    d.Leads (dir.child name) q ↔ ∃ place, d.Leads dir place ∧
      d.lookup place = some .directory ∧ name.utf8ByteSize ≤ nameLimit ∧ q = place ++ [name] :=
  leads_iff_of_components_eq (Path.components_child dir h) q

/-- A disk that has all directories of another one, and works in the same place. -/
structure Keeps (d d' : Disk) : Prop where
  workplace_eq : d'.workplace = d.workplace
  directory : ∀ place, d.lookup place = some .directory → d'.lookup place = some .directory

theorem Keeps.trans {d'' : Disk} (h : Keeps d d') (h' : Keeps d' d'') : Keeps d d'' :=
  ⟨h'.workplace_eq.trans h.workplace_eq,
    fun place found => h'.directory place (h.directory place found)⟩

theorem Keeps.leads (h : Keeps d d') {p : Path} {place : Location} (leads : d.Leads p place) :
    d'.Leads p place := by
  rw [Leads, h.workplace_eq]
  exact walk_eq_ok_of_keeps h.directory leads

section Entries

variable {place target : Location}

theorem keeps_put (free : d.lookup place ≠ some .directory) (e : Entry) :
    Keeps d (d.put place e) := by
  refine ⟨rfl, fun p found => ?_⟩
  rw [lookup_put _ _ _ (ne_root_of_free free), if_neg, found]
  rintro rfl
  exact free found

theorem keeps_erase (free : d.lookup place ≠ some .directory) : Keeps d (d.erase place) := by
  refine ⟨rfl, fun q found => ?_⟩
  rw [lookup_erase _ _ _ (ne_root_of_free free), if_neg, found]
  rintro rfl
  exact free found

theorem keeps_move (free : d.lookup place ≠ some .directory)
    (free' : d.lookup target ≠ some .directory) (e : Entry) :
    Keeps d ((d.erase place).put target e) :=
  (keeps_erase free).trans (keeps_put (free_erase free free') e)

end Entries
end Paths

section Operations

/-- A path that leads to a place, where something may be or not. -/
structure Resolves (d : Disk) (p : Path) (place : Location) : Prop where
  named : p.text.isEmpty = false
  noNul : p.text.toList.contains '\x00' = false
  short : p.text.utf8ByteSize < pathLimit
  leads : d.Leads p place
  asksForFile : ∀ content, d.lookup place = some (.file content) → p.asksForDirectory = false

variable {d d' : Disk} {p : Path}

private theorem settles_iff (d : Disk) (p : Path) (q place : Location) :
    (match d.lookup q with
      | some (.file _) => if p.asksForDirectory then throw .notDirectory else return q
      | _ => return q : Except Fault Location) = .ok place ↔
    q = place ∧ ∀ content, d.lookup place = some (.file content) → p.asksForDirectory = false := by
  rcases found : d.lookup q with _ | _ | content
  · rw [pure_eq_ok_iff]
    exact ⟨fun equal => ⟨equal, by simp [← equal, found]⟩, fun both => both.1⟩
  · rw [pure_eq_ok_iff]
    exact ⟨fun equal => ⟨equal, by simp [← equal, found]⟩, fun both => both.1⟩
  · cases asks : p.asksForDirectory
    · simp [pure_eq_ok_iff]
    · simp only [if_true]
      constructor
      · intro failed
        cases failed
      · rintro ⟨rfl, never⟩
        simp [found] at never

theorem resolve_eq_ok_iff {place : Location} : d.resolve p = .ok place ↔ d.Resolves p place := by
  have shape : d.Resolves p place ↔ p.text.isEmpty = false ∧
      p.text.toList.contains '\x00' = false ∧ p.text.utf8ByteSize < pathLimit ∧
      d.Leads p place ∧
      ∀ content, d.lookup place = some (.file content) → p.asksForDirectory = false :=
    ⟨fun ⟨h, h', h'', leads, file⟩ => ⟨h, h', h'', leads, file⟩,
      fun ⟨h, h', h'', leads, file⟩ => ⟨h, h', h'', leads, file⟩⟩
  rw [shape, resolve]
  cases p.text.isEmpty
  case true => simp
  cases p.text.toList.contains '\x00'
  case true => simp
  by_cases long : pathLimit ≤ p.text.utf8ByteSize
  · simp [long, Nat.not_lt_of_le long]
  simp only [Bool.false_eq_true, if_false, if_neg long, Nat.lt_of_not_le long, true_and,
    bind_eq_ok_iff]
  constructor
  · rintro ⟨q, leads, settled⟩
    obtain ⟨rfl, file⟩ := (settles_iff d p q place).mp settled
    exact ⟨leads, file⟩
  · rintro ⟨leads, file⟩
    exact ⟨place, leads, (settles_iff d p place place).mpr ⟨rfl, file⟩⟩

theorem entry_eq_ok_iff {e : Entry} :
    d.entry p = .ok e ↔ ∃ place, d.Resolves p place ∧ d.lookup place = some e := by
  simp only [entry, bind_eq_ok_iff, resolve_eq_ok_iff]
  refine exists_congr fun place => and_congr_right fun _ => ?_
  cases d.lookup place with
  | none => simp
  | some e' => simp [pure_eq_ok_iff]

theorem isDirectory_iff :
    d.isDirectory p = true ↔ ∃ place, d.Resolves p place ∧ d.lookup place = some .directory := by
  rw [← entry_eq_ok_iff, isDirectory]
  rcases d.entry p with _ | _ | _ <;> simp

theorem isFile_iff : d.isFile p = true ↔
    ∃ place content, d.Resolves p place ∧ d.lookup place = some (.file content) := by
  have asEntry : (∃ place content, d.Resolves p place ∧ d.lookup place = some (.file content)) ↔
      ∃ content, d.entry p = .ok (.file content) := by
    simp only [entry_eq_ok_iff]
    exact exists_comm
  rw [asEntry, isFile]
  rcases d.entry p with _ | _ | _ <;> simp

theorem readText_eq_ok_iff {s : String} : d.readText p = .ok s ↔
    ∃ place, d.Resolves p place ∧ d.lookup place = some (.file (.text s)) := by
  rw [← entry_eq_ok_iff, readText]
  simp only [bind_eq_ok_iff]
  constructor
  · rintro ⟨_ | _ | _, found, read⟩
    · cases read
    · cases read
      exact found
    · cases read
  · exact fun found => ⟨_, found, rfl⟩

theorem makeDirectory_eq_ok_iff : d.makeDirectory p = .ok d' ↔
    ∃ place, d.Resolves p place ∧ d.lookup place = none ∧ p.endsInDot = false ∧
      d' = d.put place .directory := by
  simp only [makeDirectory, bind_eq_ok_iff, resolve_eq_ok_iff]
  refine exists_congr fun place => and_congr_right fun _ => ?_
  cases d.lookup place with
  | some e => simp
  | none =>
    cases p.endsInDot
    · simp only [Bool.false_eq_true, if_false, pure_eq_ok_iff, true_and]
      exact eq_comm
    · simp

theorem writeContent_eq_ok_iff {content : Content} : d.writeContent p content = .ok d' ↔
    ∃ place, d.Resolves p place ∧ p.asksForDirectory = false ∧
      d.lookup place ≠ some .directory ∧ d' = d.put place (.file content) := by
  simp only [writeContent, bind_eq_ok_iff, resolve_eq_ok_iff]
  refine exists_congr fun place => and_congr_right fun _ => ?_
  cases p.asksForDirectory with
  | true => simp [bind_eq_ok_iff]
  | false =>
    rcases d.lookup place with _ | _ | _
    · simp only [Bool.false_eq_true, if_false, pure_eq_ok_iff]
      simp [eq_comm]
    · simp
    · simp only [Bool.false_eq_true, if_false, pure_eq_ok_iff]
      simp [eq_comm]

theorem writeText_eq_ok_iff {s : String} : d.writeText p s = .ok d' ↔
    ∃ place, d.Resolves p place ∧ p.asksForDirectory = false ∧
      d.lookup place ≠ some .directory ∧ d' = d.put place (.file (.text s)) :=
  writeContent_eq_ok_iff

theorem rename_eq_ok_iff {source target : Path} : d.rename source target = .ok d' ↔
    ∃ sourcePlace targetPlace content, d.Resolves source sourcePlace ∧
      d.Resolves target targetPlace ∧ target.asksForDirectory = false ∧
      d.lookup sourcePlace = some (.file content) ∧ d.lookup targetPlace ≠ some .directory ∧
      d' = (d.erase sourcePlace).put targetPlace (.file content) := by
  simp only [rename, bind_eq_ok_iff, resolve_eq_ok_iff]
  cases target.asksForDirectory with
  | true => simp [bind_eq_ok_iff]
  | false =>
    simp only [Bool.false_eq_true, if_false, true_and]
    constructor
    · rintro ⟨sourcePlace, leaves, targetPlace, arrives, moved⟩
      rcases moving : d.lookup sourcePlace with _ | _ | content
      · simp [moving] at moved
      · simp [moving] at moved
      · refine ⟨sourcePlace, targetPlace, content, leaves, arrives, moving, ?_⟩
        rcases there : d.lookup targetPlace with _ | _ | _
        · simp only [moving, there, pure_eq_ok_iff] at moved
          exact ⟨by simp, moved.symm⟩
        · simp [moving, there] at moved
        · simp only [moving, there, pure_eq_ok_iff] at moved
          exact ⟨by simp, moved.symm⟩
    · rintro ⟨sourcePlace, targetPlace, content, leaves, arrives, moving, free, rfl⟩
      refine ⟨sourcePlace, leaves, targetPlace, arrives, ?_⟩
      rcases there : d.lookup targetPlace with _ | _ | _
      · simp only [moving]
        rfl
      · exact absurd there free
      · simp only [moving]
        rfl

end Operations
end ToolTrial.Disk
