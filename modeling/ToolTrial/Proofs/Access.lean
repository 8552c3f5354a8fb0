import ToolTrial.Proofs.Disk
import ToolTrial.Proofs.Simulation
import ToolTrial.Store.Workspace

/-!
Writing a file as a whole.  What is missing of the way to the file is made first, so that the disk
grows by directories; then the file is written under another name and moved to its place.
-/

set_option autoImplicit false
set_option relaxedAutoImplicit false

namespace ToolTrial

theorem Path.isName_temporaryName {name : String} (noSeparator : '/' ∉ name.toList) :
    IsName (FileSystem.temporaryName name) :=
  isName_append noSeparator (by decide) (by decide)

namespace Disk

/-- A disk with some directories more than another one. -/
structure Grown (d d' : Disk) : Prop where
  workplace_eq : d'.workplace = d.workplace
  entries_eq : ∃ places : List Location,
    d'.entries = d.entries ++ places.map fun place => (place, Entry.directory)

namespace Grown

variable {d d' d'' : Disk}

theorem refl (d : Disk) : Grown d d := ⟨rfl, [], by simp⟩

theorem trans (h : Grown d d') (h' : Grown d' d'') : Grown d d'' := by
  obtain ⟨places, entries⟩ := h.entries_eq
  obtain ⟨more, entries'⟩ := h'.entries_eq
  refine ⟨h'.workplace_eq.trans h.workplace_eq, places ++ more, ?_⟩
  rw [entries', entries, List.map_append, List.append_assoc]

theorem lookup_eq_some (h : Grown d d') {place : Location} {e : Entry}
    (found : d.lookup place = some e) : d'.lookup place = some e := by
  obtain ⟨places, entries⟩ := h.entries_eq
  unfold lookup at found ⊢
  split at found
  · rename_i root
    rw [if_pos root]
    exact found
  · rename_i noRoot
    rw [if_neg noRoot, entries, List.lookup_append, found]
    rfl

theorem lookup_eq_file (h : Grown d d') {place : Location} {content : Content}
    (found : d'.lookup place = some (.file content)) : d.lookup place = some (.file content) := by
  obtain ⟨places, entries⟩ := h.entries_eq
  unfold lookup at found ⊢
  split at found
  · simp at found
  · rename_i noRoot
    rw [if_neg noRoot]
    rw [entries, List.lookup_append, Option.or_eq_some_iff] at found
    rcases found with old | ⟨-, new⟩
    · exact old
    · obtain ⟨front, back, split, -⟩ := List.lookup_eq_some_iff.mp new
      have member : (place, Entry.file content) ∈
          places.map fun place => (place, Entry.directory) := by simp [split]
      simp at member

theorem keeps (h : Grown d d') : Keeps d d' :=
  ⟨h.workplace_eq, fun _ found => h.lookup_eq_some found⟩

end Grown

theorem grown_of_makeDirectory {d d' : Disk} {p : Path} (made : d.makeDirectory p = .ok d') :
    Grown d d' := by
  obtain ⟨place, -, new, -, rfl⟩ := makeDirectory_eq_ok_iff.mp made
  unfold lookup at new
  split at new
  · simp at new
  · exact ⟨rfl, [place], setEntry_of_lookup_eq_none new _⟩

end Disk

namespace FileSystem

section Changes

variable {σ α β : Type}

/-- An operation that leaves a state which is related to the one before, whatever it answers. -/
def Changes (rel : σ → σ → Prop) (operation : StateM σ α) : Prop :=
  ∀ s, rel s (operation s).2

variable {rel : σ → σ → Prop}

theorem changes_bind (trans : ∀ s t u, rel s t → rel t u → rel s u) {first : StateM σ α}
    {next : α → StateM σ β} (here : Changes rel first) (there : ∀ a, Changes rel (next a)) :
    Changes rel (first >>= next) :=
  fun s => trans _ _ _ (here s) (there (first s).1 (first s).2)

variable [FileSystem (StateM σ)] (refl : ∀ s, rel s s)
  (trans : ∀ s t u, rel s t → rel t u → rel s u)
  (makes : ∀ dir, Changes rel (makeDirectory dir : StateM σ (Except Fault Unit)))
  (looks : ∀ dir, Changes rel (isDirectory dir : StateM σ Bool))

/-- Programs that leave related states, beside anything. -/
private def changing : DirectorySimulation (StateM σ) (StateM σ) where
  Rel program _ := Changes rel program
  pure _ := refl
  bind := changes_bind trans
  isDirectory := looks
  makeDirectory := makes

include refl trans makes looks

theorem changes_makeLineage (dirs : List Path) :
    Changes rel (makeLineage dirs : StateM σ (Except Fault Unit)) :=
  (changing refl trans makes looks).makeLineage dirs

theorem changes_writeWhole
    (writes : ∀ path text, Changes rel (writeText path text : StateM σ (Except Fault Unit)))
    (moves : ∀ source target, Changes rel (rename source target : StateM σ (Except Fault Unit)))
    (path : Path) (text : String) :
    Changes rel (writeWhole path text : Attempt (StateM σ) Unit).run :=
  let S : Simulation (StateM σ) (StateM σ) :=
    { changing refl trans makes looks with writeText := writes, rename := moves }
  S.writeWhole path text

end Changes
end FileSystem

namespace Workspace

open FileSystem (Changes)

theorem change_of_ok {f : Disk → Except Fault Disk} {w : Workspace} {d : Disk}
    (changes : f w.disk = .ok d) : change f w = (.ok (), { w with disk := d }) := by
  rw [change, changes]

theorem change_of_error {f : Disk → Except Fault Disk} {w : Workspace} {fault : Fault}
    (fails : f w.disk = .error fault) : change f w = (.error fault, w) := by
  rw [change, fails]

theorem changes_change {rel : Disk → Disk → Prop} (refl : ∀ d, rel d d)
    {f : Disk → Except Fault Disk} (does : ∀ d d', f d = .ok d' → rel d d') :
    Changes (fun w w' : Workspace => rel w.disk w'.disk) (change f) := by
  intro w
  cases changed : f w.disk with
  | ok d =>
    rw [change_of_ok changed]
    exact does _ _ changed
  | error fault =>
    rw [change_of_error changed]
    exact refl _

private def GrownTo (w w' : Workspace) : Prop :=
  ∃ d, Disk.Grown w.disk d ∧ w' = { w with disk := d }

private theorem changes_makeDirectory (dir : Path) :
    Changes GrownTo (FileSystem.makeDirectory dir : StateM Workspace (Except Fault Unit)) := by
  intro w
  show GrownTo w (change (·.makeDirectory dir) w).2
  cases made : w.disk.makeDirectory dir with
  | ok d => exact ⟨d, Disk.grown_of_makeDirectory made, by rw [change_of_ok made]⟩
  | error fault => exact ⟨w.disk, .refl _, by rw [change_of_error made]⟩

theorem makeDirectories_grown (dir : Path) (w : Workspace) : ∃ d, Disk.Grown w.disk d ∧
    ((FileSystem.makeDirectories dir : StateM Workspace (Except Fault Unit)) w).2 =
      { w with disk := d } := by
  have refl (w : Workspace) : GrownTo w w := ⟨w.disk, .refl _, rfl⟩
  refine FileSystem.changes_makeLineage refl ?_ changes_makeDirectory (fun _ => refl) dir.lineage w
  rintro w _ _ ⟨d, grown, rfl⟩ ⟨d', grown', rfl⟩
  exact ⟨d', grown.trans grown', rfl⟩

private theorem outcome_access_change (activity : Activity) (f : Disk → Except Fault Disk)
    (w : Workspace) : (Attempt.access activity (change f)).outcome w =
      match f w.disk with
      | .ok d => (.ok (), { w with disk := d })
      | .error fault => (.error ⟨[activity], .disk fault⟩, w) := by
  rw [Attempt.outcome_access, change]
  cases f w.disk <;> rfl

private def replaced (temporary path : Path) (text : String) :
    Attempt (StateM Workspace) Unit := do
  Attempt.access (.writingTemporary temporary) (change (·.writeText temporary text))
  Attempt.access (.replacing path) (change (·.rename temporary path))

private theorem replaced_cases (temporary path : Path) (text : String) (w : Workspace) :
    (∃ activity fault d, (d = w.disk ∨ w.disk.writeText temporary text = .ok d) ∧
      (replaced temporary path text).outcome w =
        (.error ⟨[activity], .disk fault⟩, { w with disk := d })) ∨
    ∃ d d', w.disk.writeText temporary text = .ok d ∧ d.rename temporary path = .ok d' ∧
      (replaced temporary path text).outcome w = (.ok (), { w with disk := d' }) := by
  rw [replaced, Attempt.outcome_bind, outcome_access_change]
  cases written : w.disk.writeText temporary text with
  | error fault => exact Or.inl ⟨_, fault, w.disk, Or.inl rfl, rfl⟩
  | ok d =>
    dsimp only
    rw [outcome_access_change]
    cases moved : d.rename temporary path with
    | error fault => exact Or.inl ⟨_, fault, d, Or.inr rfl, rfl⟩
    | ok d' => exact Or.inr ⟨d, d', rfl, moved, rfl⟩

/-- Putting a text in place fails by an operation on the disk, when the disk has grown by
directories and the text may be there beside its place; or else the text was moved to its place from
there. -/
theorem writeWhole_cases {path upper : Path} {name : String} (parent : path.parent? = some upper)
    (ends : path.fileName? = some name) (text : String) (w : Workspace) :
    (∃ activity fault g d, Disk.Grown w.disk g ∧
        (d = g ∨
          g.writeText (path.withFileName (FileSystem.temporaryName name)) text = .ok d) ∧
        (FileSystem.writeWhole path text : Attempt (StateM Workspace) Unit).outcome w =
          (.error ⟨[activity], .disk fault⟩, { w with disk := d })) ∨
      ∃ g d d', Disk.Grown w.disk g ∧
        g.writeText (path.withFileName (FileSystem.temporaryName name)) text = .ok d ∧
        d.rename (path.withFileName (FileSystem.temporaryName name)) path = .ok d' ∧
        (FileSystem.writeWhole path text : Attempt (StateM Workspace) Unit).outcome w =
          (.ok (), { w with disk := d' }) := by
  let temporary := path.withFileName (FileSystem.temporaryName name)
  have whole : (FileSystem.writeWhole path text : Attempt (StateM Workspace) Unit) =
      if upper.text.isEmpty = true then replaced temporary path text
      else Attempt.access (.creatingDirectory upper) (FileSystem.makeDirectories upper) >>=
        fun _ => replaced temporary path text := by
    unfold FileSystem.writeWhole
    simp only [parent, ends]
    cases upper.text.isEmpty <;> rfl
  rw [whole]
  split
  · rcases replaced_cases temporary path text w with
      ⟨activity, fault, d, begun, failed⟩ | ⟨d, d', written, moved, ended⟩
    · exact Or.inl ⟨activity, fault, w.disk, d, .refl _, begun, failed⟩
    · exact Or.inr ⟨w.disk, d, d', .refl _, written, moved, ended⟩
  · obtain ⟨g, grown, left⟩ := makeDirectories_grown upper w
    rw [Attempt.outcome_bind, Attempt.outcome_access]
    rcases made : (FileSystem.makeDirectories upper : StateM Workspace (Except Fault Unit)) w with
      ⟨fault | _, w'⟩
    all_goals
      have state : w' = { w with disk := g } := by simpa [made] using left
      subst state
    · exact Or.inl ⟨_, fault, g, g, grown, Or.inl rfl, rfl⟩
    · dsimp only
      rcases replaced_cases temporary path text { w with disk := g } with
        ⟨activity, fault, d, begun, failed⟩ | ⟨d, d', written, moved, ended⟩
      · exact Or.inl ⟨activity, fault, g, d, grown, begun, failed⟩
      · exact Or.inr ⟨g, d, d', grown, written, moved, ended⟩

theorem exists_of_writeWhole {dir : Path} {name text : String} (h : Path.IsName name)
    {w w' : Workspace}
    (wrote : (FileSystem.writeWhole (dir.child name) text : Attempt (StateM Workspace) Unit).Gives
      w () w') :
    ∃ g written d', Disk.Grown w.disk g ∧
      g.writeText ((dir.child name).withFileName (FileSystem.temporaryName name)) text =
        .ok written ∧
      written.rename ((dir.child name).withFileName (FileSystem.temporaryName name))
        (dir.child name) = .ok d' ∧ w' = { w with disk := d' } := by
  obtain ⟨upper, parent, -⟩ := Path.parent?_child dir h
  rcases writeWhole_cases parent (Path.fileName?_child dir h) text w with
    ⟨_, _, _, _, _, _, failed⟩ | ⟨g, written, d', grown, writes, moves, ended⟩
  · exact absurd failed (wrote.outcome_ne_error _)
  · exact ⟨g, written, d', grown, writes, moves, (wrote.unique ended).2⟩

end Workspace

namespace Disk

open FileSystem (temporaryName)

/-- The disk `d'` after a text was put under a name into the directory at a place, on the disk `g`
that `d` had grown to. -/
structure Stored (d g d' : Disk) (place : Location) (name text : String) : Prop where
  grown : Grown d g
  workplace_eq : d'.workplace = g.workplace
  entries_eq : d'.entries = setEntry (place ++ [name]) (.file (.text text))
    (g.entries.filter fun e => e.1 ≠ place ++ [temporaryName name])
  targetFree : g.lookup (place ++ [name]) ≠ some .directory
  temporaryFree : g.lookup (place ++ [temporaryName name]) ≠ some .directory

theorem temporaryName_ne (name : String) : temporaryName name ≠ name := by
  intro equal
  have longer := congrArg (fun s => s.toList.length) equal
  simp [temporaryName] at longer

theorem ne_temporary (place : Location) (name : String) :
    place ++ [name] ≠ place ++ [temporaryName name] := by
  simpa using (temporaryName_ne name).symm

namespace Stored

variable {d g d' : Disk} {place : Location} {name text : String}

theorem lookup_eq (h : Stored d g d' place name text) {q : Location}
    (apart : q ≠ place ++ [temporaryName name]) :
    d'.lookup q = if q = place ++ [name] then some (.file (.text text)) else g.lookup q := by
  unfold lookup
  by_cases root : q = []
  · simp [root]
  · rw [if_neg root, if_neg root, h.entries_eq, lookup_setEntry, lookup_filter_ne apart]

theorem lookup_self (h : Stored d g d' place name text) :
    d'.lookup (place ++ [name]) = some (.file (.text text)) := by
  rw [h.lookup_eq (ne_temporary place name), if_pos rfl]

theorem lookup_temporary (h : Stored d g d' place name text) :
    d'.lookup (place ++ [temporaryName name]) = none := by
  unfold lookup
  rw [if_neg (by simp), h.entries_eq, lookup_setEntry, if_neg (ne_temporary place name).symm,
    List.lookup_eq_none_iff]
  intro e member
  have other : e.1 ≠ place ++ [temporaryName name] := by simpa using (List.mem_filter.mp member).2
  simpa using other.symm

theorem keeps (h : Stored d g d' place name text) : Keeps g d' := by
  refine ⟨h.workplace_eq, fun q found => ?_⟩
  have noTemporary : q ≠ place ++ [temporaryName name] := by
    rintro rfl
    exact h.temporaryFree found
  have noTarget : q ≠ place ++ [name] := by
    rintro rfl
    exact h.targetFree found
  rw [h.lookup_eq noTemporary, if_neg noTarget, found]

end Stored

theorem leads_withFileName_child {d : Disk} {dir : Path} {name other : String}
    (h : Path.IsName name) (h' : Path.IsName other) (q : Location) :
    d.Leads ((dir.child name).withFileName other) q ↔ d.Leads (dir.child other) q := by
  obtain ⟨upper, parent, steps⟩ := Path.parent?_child dir h
  rw [Path.withFileName_eq_child parent]
  apply leads_congr
  rw [Path.components_child upper h', Path.components_child dir h', steps]

theorem written_beside {g written : Disk} {dir : Path} {name text : String}
    (h : Path.IsName name)
    (writes : g.writeText ((dir.child name).withFileName (temporaryName name)) text =
      .ok written) :
    ∃ place, g.Leads dir place ∧ g.lookup place = some .directory ∧
      g.Leads ((dir.child name).withFileName (temporaryName name))
        (place ++ [temporaryName name]) ∧
      g.lookup (place ++ [temporaryName name]) ≠ some .directory ∧
      written = g.put (place ++ [temporaryName name]) (.file (.text text)) := by
  have h' := Path.isName_temporaryName h.noSeparator
  obtain ⟨q, reaches, -, free, rfl⟩ := writeText_eq_ok_iff.mp writes
  have leads := reaches.leads
  rw [leads_withFileName_child h h'] at leads
  obtain ⟨place, there, isDirectory, -, rfl⟩ := (leads_child_iff dir h' q).mp leads
  exact ⟨place, there, isDirectory, reaches.leads, free, rfl⟩

/-- A text that is written beside its place and moved there is stored. -/
theorem stored_of_replaced {d g written d' : Disk} {dir : Path} {name text : String}
    (h : Path.IsName name) (grown : Grown d g)
    (writes : g.writeText ((dir.child name).withFileName (temporaryName name)) text = .ok written)
    (moves : written.rename ((dir.child name).withFileName (temporaryName name)) (dir.child name) =
      .ok d') :
    ∃ place, Stored d g d' place name text ∧ g.Leads dir place ∧
      g.lookup place = some .directory ∧ (dir.child name).asksForDirectory = false ∧
      d'.Resolves (dir.child name) (place ++ [name]) := by
  obtain ⟨place, leads, isDirectory, reachesTemporary, temporaryFree, rfl⟩ :=
    written_beside h writes
  have keeps : Keeps g (g.put (place ++ [temporaryName name]) (.file (.text text))) :=
    keeps_put temporaryFree _
  obtain ⟨source, target, content, leaves, arrives, asks, moving, targetFree, rfl⟩ :=
    rename_eq_ok_iff.mp moves
  obtain rfl := (keeps.leads reachesTemporary).unique leaves.leads
  obtain ⟨place', leads', -, short, rfl⟩ := (leads_child_iff dir h target).mp arrives.leads
  obtain rfl := (keeps.leads leads).unique leads'
  rw [lookup_put _ _ _ (by simp), if_pos rfl] at moving
  obtain rfl : Content.text text = content := by simpa using moving
  rw [lookup_put _ _ _ (by simp), if_neg (ne_temporary place name)] at targetFree
  have stored : Stored d g
      (((g.put (place ++ [temporaryName name]) (.file (.text text))).erase
        (place ++ [temporaryName name])).put (place ++ [name]) (.file (.text text)))
      place name text := by
    refine ⟨grown, rfl, ?_, targetFree, temporaryFree⟩
    show setEntry _ _ ((setEntry _ _ g.entries).filter _) = _
    rw [filter_setEntry]
  refine ⟨place, stored, leads, isDirectory, asks, ?_⟩
  refine ⟨arrives.named, arrives.noNul, arrives.short, ?_, fun _ _ => asks⟩
  exact (leads_child_iff dir h (place ++ [name])).mpr
    ⟨place, stored.keeps.leads leads, stored.keeps.directory place isDirectory, short, rfl⟩

/-- A disk with all directories of another one, and all its files but those at exposed places. -/
structure Spares (exposed : Location → Prop) (d d' : Disk) : Prop where
  keeps : Keeps d d'
  lookup_eq : ∀ {q content}, ¬ exposed q → d.lookup q = some (.file content) →
    d'.lookup q = some (.file content)

theorem Stored.spares {d g d' : Disk} {place : Location} {name text : String}
    (h : Stored d g d' place name text) :
    Spares (fun q => q = place ++ [temporaryName name] ∨ q = place ++ [name]) d d' := by
  refine ⟨h.grown.keeps.trans h.keeps, fun {q} {content} hidden found => ?_⟩
  rw [not_or] at hidden
  rw [h.lookup_eq hidden.1, if_neg hidden.2]
  exact h.grown.lookup_eq_some found

theorem spares_of_begun {d g d' : Disk} {dir : Path} {name text : String} {place : Location}
    (h : Path.IsName name) (grown : Grown d g)
    (begun : d' = g ∨
      g.writeText ((dir.child name).withFileName (temporaryName name)) text = .ok d')
    (leads : d.Leads dir place) :
    Spares (fun q => q = place ++ [temporaryName name]) d d' := by
  rcases begun with rfl | writes
  · exact ⟨grown.keeps, fun _ found => grown.lookup_eq_some found⟩
  · obtain ⟨place', leads', -, -, free, rfl⟩ := written_beside h writes
    obtain rfl := (grown.keeps.leads leads).unique leads'
    refine ⟨grown.keeps.trans (keeps_put free _), fun {q} {content} hidden found => ?_⟩
    rw [lookup_put _ _ _ (by simp), if_neg hidden]
    exact grown.lookup_eq_some found

end Disk
end ToolTrial
