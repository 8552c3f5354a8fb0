import ToolTrial.Proofs.Access
import ToolTrial.Proofs.Documents

/-!
Documents and texts that were put into one directory.  Those that were put there are found there,
and all else is as it was; on a disk, what lay beside their places under the names of temporary
files is used up.
-/

set_option autoImplicit false
set_option relaxedAutoImplicit false

namespace ToolTrial

open FileSystem (temporaryName)

namespace Documents

/-- The documents `docs'` after others were put under names into a directory of `docs`. -/
structure Received (dir : Path) (entries : List (String × Json))
    (docs docs' : Documents) : Prop where
  given : ∀ e ∈ entries, docs'.lookup (dir.child e.1) = some e.2
  others : ∀ path, (∀ e ∈ entries, (dir.child e.1).same path = false) →
    docs'.lookup path = docs.lookup path

section Received

variable {dir : Path} {first second : List (String × Json)} {docs docs' docs'' : Documents}

theorem received_nil (dir : Path) (docs : Documents) : Received dir [] docs docs :=
  ⟨by simp, fun _ _ => rfl⟩

theorem received_insert (dir : Path) (name : String) (document : Json) (docs : Documents) :
    Received dir [(name, document)] docs (docs.insert (dir.child name) document) := by
  constructor
  · intro e member
    obtain rfl : e = (name, document) := by simpa using member
    rw [lookup_insert, if_pos ((Path.same_iff _ _).mpr rfl)]
  · intro path elsewhere
    have apart := elsewhere (name, document) List.mem_cons_self
    rw [lookup_insert, if_neg (by simp [apart])]

theorem Received.append (h : Received dir first docs docs') (h' : Received dir second docs' docs'')
    (names : ∀ e ∈ first ++ second, Path.IsName e.1)
    (differ : ∀ e ∈ first, ∀ e' ∈ second, e'.1 ≠ e.1) :
    Received dir (first ++ second) docs docs'' := by
  constructor
  · intro e member
    rcases List.mem_append.mp member with earlier | later
    · rw [h'.others, h.given e earlier]
      intro e' later
      have isName := names e member
      have isName' := names e' (List.mem_append_right _ later)
      rw [← Bool.not_eq_true, Path.same_child_iff dir isName' isName]
      exact differ e earlier e' later
    · exact h'.given e later
  · intro path elsewhere
    rw [List.forall_mem_append] at elsewhere
    rw [h'.others path elsewhere.2, h.others path elsewhere.1]

end Received

end Documents

namespace Disk

/-- The same file is at a place of two disks, or none on either. -/
def SameFile (d d' : Disk) (q : Location) : Prop :=
  ∀ content, d'.lookup q = some (.file content) ↔ d.lookup q = some (.file content)

/-- A text that is put under a name into a directory comes to a place, or lies there for a while. -/
def Touches (d : Disk) (dir : Path) (name : String) (q : Location) : Prop :=
  d.Leads (dir.child name) q ∨ d.Leads (dir.child (temporaryName name)) q

/-- The disk `d'` after texts were put as a whole under names into a directory of `d`. -/
structure Received (dir : Path) (entries : List (String × String)) (d d' : Disk) : Prop where
  keeps : Keeps d d'
  given : ∀ e ∈ entries, d'.readText (dir.child e.1) = .ok e.2
  usedUp : ∀ e ∈ entries, ∀ q, d'.Leads (dir.child (temporaryName e.1)) q →
    ∀ content, d'.lookup q ≠ some (.file content)
  others : ∀ q, (∀ e ∈ entries, ¬ d'.Touches dir e.1 q) → SameFile d d' q

theorem SameFile.trans {d d' d'' : Disk} {q : Location} (h : SameFile d d' q)
    (h' : SameFile d' d'' q) : SameFile d d'' q :=
  fun content => (h' content).trans (h content)

theorem Grown.sameFile {d d' : Disk} (h : Grown d d') (q : Location) : SameFile d d' q :=
  fun _ => ⟨fun found => h.lookup_eq_file found, fun found => h.lookup_eq_some found⟩

section Children

variable {d d' : Disk} {dir : Path} {name other : String} {q : Location}

theorem name_eq_of_leads (h : Path.IsName name) (h' : Path.IsName other)
    (leads : d.Leads (dir.child name) q) (leads' : d.Leads (dir.child other) q) : name = other := by
  obtain ⟨place, there, -, -, rfl⟩ := (leads_child_iff dir h q).mp leads
  obtain ⟨place', there', -, -, equal⟩ := (leads_child_iff dir h' _).mp leads'
  obtain rfl := there.unique there'
  simpa using equal

/-- Where one entry of a directory is reached, so is every other one that can be reached later. -/
theorem leads_child_of_keeps (keeps : Keeps d d') (h : Path.IsName name) (h' : Path.IsName other)
    {place : Location} (leads : d.Leads (dir.child name) place)
    (later : d'.Leads (dir.child other) q) : d.Leads (dir.child other) q := by
  obtain ⟨upper, there, isDirectory, -, -⟩ := (leads_child_iff dir h _).mp leads
  obtain ⟨upper', there', -, short, rfl⟩ := (leads_child_iff dir h' _).mp later
  obtain rfl := (keeps.leads there).unique there'
  exact (leads_child_iff dir h' _).mpr ⟨upper, there, isDirectory, short, rfl⟩

theorem not_touches_of_keeps (keeps : Keeps d d') (apart : ¬ d'.Touches dir name q) :
    ¬ d.Touches dir name q := by
  rintro (leads | leads)
  · exact apart (.inl (keeps.leads leads))
  · exact apart (.inr (keeps.leads leads))

theorem readText_of_sameFile (keeps : Keeps d d') (h : Path.IsName name) {text : String}
    (read : d.readText (dir.child name) = .ok text)
    (same : ∀ place, d.Leads (dir.child name) place → SameFile d d' place) :
    d'.readText (dir.child name) = .ok text := by
  obtain ⟨place, reaches, found⟩ := readText_eq_ok_iff.mp read
  have asks := Path.asksForDirectory_child dir h
  refine readText_eq_ok_iff.mpr ⟨place, ⟨reaches.named, reaches.noNul, reaches.short,
    keeps.leads reaches.leads, fun _ _ => asks⟩, ?_⟩
  exact (same place reaches.leads _).mpr found

end Children

section Received

variable {dir : Path} {first second : List (String × String)} {d d' d'' : Disk}

theorem received_nil (dir : Path) (d : Disk) : Received dir [] d d :=
  ⟨⟨rfl, fun _ found => found⟩, by simp, by simp, fun _ _ _ => Iff.rfl⟩

theorem Stored.received {g : Disk} {place : Location} {name text : String}
    (stored : Stored d g d' place name text)
    (reaches : d'.Resolves (dir.child name) (place ++ [name]))
    (beside : g.Leads (dir.child (temporaryName name)) (place ++ [temporaryName name])) :
    Received dir [(name, text)] d d' := by
  have leadsBeside := stored.keeps.leads beside
  refine ⟨stored.grown.keeps.trans stored.keeps, ?_, ?_, ?_⟩
  · intro e member
    obtain rfl : e = (name, text) := by simpa using member
    exact readText_eq_ok_iff.mpr ⟨_, reaches, stored.lookup_self⟩
  · intro e member q leads content found
    obtain rfl : e = (name, text) := by simpa using member
    obtain rfl := leadsBeside.unique leads
    simp [stored.lookup_temporary] at found
  · intro q untouched content
    obtain ⟨notThere, notBeside⟩ := not_or.mp (untouched (name, text) List.mem_cons_self)
    have elsewhere : q ≠ place ++ [name] := by
      rintro rfl
      exact notThere reaches.leads
    have notTemporary : q ≠ place ++ [temporaryName name] := by
      rintro rfl
      exact notBeside leadsBeside
    rw [stored.lookup_eq notTemporary, if_neg elsewhere]
    exact stored.grown.sameFile q content

theorem Received.append (h : Received dir first d d') (h' : Received dir second d' d'')
    (names : ∀ e ∈ first ++ second, Path.IsName e.1)
    (differ : ∀ e ∈ first, ∀ e' ∈ second, e'.1 ≠ e.1)
    (lasting : ∀ e ∈ first, ∀ e' ∈ second, temporaryName e'.1 ≠ e.1 ∧ e'.1 ≠ temporaryName e.1) :
    Received dir (first ++ second) d d'' := by
  rw [List.forall_mem_append] at names
  obtain ⟨names, names'⟩ := names
  refine ⟨h.keeps.trans h'.keeps, ?_, ?_, ?_⟩
  · intro e member
    rcases List.mem_append.mp member with earlier | later
    · refine readText_of_sameFile h'.keeps (names e earlier) (h.given e earlier) ?_
      intro place leads
      apply h'.others place
      intro e' later touches
      have isName := names' e' later
      have there := h'.keeps.leads leads
      rcases touches with leads' | leads'
      · exact differ e earlier e' later (name_eq_of_leads isName (names e earlier) leads' there)
      · exact (lasting e earlier e' later).1
          (name_eq_of_leads (Path.isName_temporaryName isName.noSeparator) (names e earlier)
            leads' there)
    · exact h'.given e later
  · intro e member q leads content found
    rcases List.mem_append.mp member with earlier | later
    · have isName := names e earlier
      have besideName := Path.isName_temporaryName isName.noSeparator
      obtain ⟨place, reaches, -⟩ := readText_eq_ok_iff.mp (h.given e earlier)
      have before := leads_child_of_keeps h'.keeps isName besideName reaches.leads leads
      by_cases touched : ∃ e' ∈ second, d''.Touches dir e'.1 q
      · obtain ⟨e', later, leads' | leads'⟩ := touched
        · exact (lasting e earlier e' later).2
            (name_eq_of_leads (names' e' later) besideName leads' leads)
        · exact h'.usedUp e' later q leads' content found
      · have same : SameFile d' d'' q :=
          h'.others q fun e' later touches => touched ⟨e', later, touches⟩
        exact h.usedUp e earlier q before content ((same content).mp found)
    · exact h'.usedUp e later q leads content found
  · intro q untouched
    rw [List.forall_mem_append] at untouched
    have earlier : SameFile d d' q :=
      h.others q fun e member => not_touches_of_keeps h'.keeps (untouched.1 e member)
    exact earlier.trans (h'.others q untouched.2)

end Received

end Disk

theorem Workspace.received_of_writeWhole {dir : Path} {name text : String} (h : Path.IsName name)
    {w w' : Workspace}
    (wrote : (FileSystem.writeWhole (dir.child name) text : Attempt (StateM Workspace) Unit).Gives
      w () w') :
    Disk.Received dir [(name, text)] w.disk w'.disk ∧ w'.documents = w.documents := by
  obtain ⟨g, written, d', grown, writes, moves, rfl⟩ := exists_of_writeWhole h wrote
  obtain ⟨place, stored, leads, -, -, reaches⟩ := Disk.stored_of_replaced h grown writes moves
  obtain ⟨place', leads', -, beside, -, -⟩ := Disk.written_beside h writes
  obtain rfl := leads.unique leads'
  rw [Disk.leads_withFileName_child h (Path.isName_temporaryName h.noSeparator)] at beside
  exact ⟨stored.received reaches beside, rfl⟩

end ToolTrial
