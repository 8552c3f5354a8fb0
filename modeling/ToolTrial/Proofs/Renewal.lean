import ToolTrial.Proofs.Documents
import ToolTrial.Proofs.Path
import ToolTrial.Proofs.Sharing

/-!
What was saved once can be saved again.  A file that was put in place as a whole leaves its
directory there and nothing beside it, so that another text can be put in the same place; a document
that is saved in memory changes what is found in its own directory only.
-/

set_option autoImplicit false
set_option relaxedAutoImplicit false

namespace ToolTrial

theorem Path.exists_text_child {dir : Path} (given : dir.text.isEmpty = false) {name : String}
    (h : IsName name) : ∃ rest, (dir.child name).text = dir.text ++ rest := by
  have relative : (⟨name⟩ : Path).isAbsolute = false := by
    rw [isAbsolute, beq_eq_false_iff_ne]
    intro slash
    exact h.noSeparator (List.mem_of_mem_head? slash)
  rw [child, join, relative, given]
  simp only [Bool.or_self, Bool.false_eq_true, if_false]
  split
  · exact ⟨name, rfl⟩
  · exact ⟨"/" ++ name, by rw [String.append_assoc]⟩

namespace Disk

open FileSystem (temporaryName)

theorem isDirectory_of_resolves_child {d : Disk} {dir : Path} {name : String} {place : Location}
    (given : dir.text.isEmpty = false) (h : Path.IsName name)
    (reaches : d.Resolves (dir.child name) place) : d.isDirectory dir = true := by
  obtain ⟨rest, text⟩ := Path.exists_text_child given h
  obtain ⟨upper, leads, found, -⟩ := (leads_child_iff dir h place).mp reaches.leads
  have noNul := reaches.noNul
  have short := reaches.short
  rw [text, String.toList_append] at noNul
  rw [text, String.utf8ByteSize_append] at short
  refine isDirectory_iff.mpr ⟨upper, ⟨given, ?_, ?_, leads, ?_⟩, found⟩
  · rw [← Bool.not_eq_true, List.contains_iff_mem] at noNul ⊢
    exact fun nul => noNul (List.mem_append_left _ nul)
  · omega
  · intro content file
    simp [found] at file

theorem replaced_again {d g written d' : Disk} {dir : Path} {name text : String}
    (h : Path.IsName name) (grown : Grown d g)
    (writes : g.writeText ((dir.child name).withFileName (temporaryName name)) text = .ok written)
    (moves : written.rename ((dir.child name).withFileName (temporaryName name)) (dir.child name) =
      .ok d') (text' : String) :
    (∃ place, d'.Resolves ((dir.child name).withFileName (temporaryName name)) place) ∧
      ∃ e e', d'.writeText ((dir.child name).withFileName (temporaryName name)) text' = .ok e ∧
        e.rename ((dir.child name).withFileName (temporaryName name)) (dir.child name) =
          .ok e' := by
  obtain ⟨place, stored, leads, -, asks, reaches⟩ := stored_of_replaced h grown writes moves
  obtain ⟨place', leads', -, leadsBeside, -, -⟩ := written_beside h writes
  obtain rfl := leads.unique leads'
  obtain ⟨q, reachesBeside, asksBeside, -, -⟩ := writeText_eq_ok_iff.mp writes
  obtain rfl := reachesBeside.leads.unique leadsBeside
  -- the place beside the target is reached as it was, and is free again
  have besideAgain : d'.Resolves ((dir.child name).withFileName (temporaryName name))
      (place ++ [temporaryName name]) :=
    ⟨reachesBeside.named, reachesBeside.noNul, reachesBeside.short,
      stored.keeps.leads reachesBeside.leads, fun _ _ => asksBeside⟩
  have free : d'.lookup (place ++ [temporaryName name]) ≠ some .directory := by
    simp [stored.lookup_temporary]
  let begun := d'.put (place ++ [temporaryName name]) (.file (.text text'))
  have writesAgain : d'.writeText ((dir.child name).withFileName (temporaryName name)) text' =
      .ok begun := writeText_eq_ok_iff.mpr ⟨_, besideAgain, asksBeside, free, rfl⟩
  have keeps : Keeps d' begun := keeps_put free _
  have inPlace : begun.lookup (place ++ [name]) ≠ some .directory := by
    rw [lookup_put _ _ _ (by simp), if_neg (ne_temporary place name), stored.lookup_self]
    simp
  have onDisk : begun.lookup (place ++ [temporaryName name]) = some (.file (.text text')) := by
    rw [lookup_put _ _ _ (by simp), if_pos rfl]
  have leaves : begun.Resolves ((dir.child name).withFileName (temporaryName name))
      (place ++ [temporaryName name]) :=
    ⟨besideAgain.named, besideAgain.noNul, besideAgain.short, keeps.leads besideAgain.leads,
      fun _ _ => asksBeside⟩
  have arrives : begun.Resolves (dir.child name) (place ++ [name]) :=
    ⟨reaches.named, reaches.noNul, reaches.short, keeps.leads reaches.leads, fun _ _ => asks⟩
  have movesAgain := rename_eq_ok_iff.mpr ⟨_, _, _, leaves, arrives, asks, onDisk, inPlace, rfl⟩
  exact ⟨⟨_, besideAgain⟩, begun, _, writesAgain, movesAgain⟩

end Disk

namespace Workspace

open FileSystem (temporaryName)

theorem makeDirectories_there {dir : Path} {w : Workspace} (there : w.disk.isDirectory dir = true) :
    (FileSystem.makeDirectories dir : StateM Workspace (Except Fault Unit)) w = (.ok (), w) := by
  obtain ⟨place, reaches, found⟩ := Disk.isDirectory_iff.mp there
  have fails : w.disk.makeDirectory dir = .error .alreadyThere := by
    rw [Disk.makeDirectory, Disk.resolve_eq_ok_iff.mpr reaches]
    simp only [bind, Except.bind, found]
    rfl
  have lineage : ∃ outer, dir.lineage = dir :: outer := by
    rw [Path.lineage, Path.upward, if_neg (by simp [reaches.named])]
    exact ⟨_, rfl⟩
  obtain ⟨outer, lineage⟩ := lineage
  have made : (FileSystem.makeDirectory dir : StateM Workspace (Except Fault Unit)) w =
      (.error .alreadyThere, w) := change_of_error fails
  have looked : (FileSystem.isDirectory dir : StateM Workspace Bool) w = (true, w) := by
    rw [← there]
    rfl
  rw [FileSystem.makeDirectories, lineage]
  simp only [FileSystem.makeLineage, bind, StateT.bind, made, looked]
  rfl

theorem gives_access_change {activity : Activity} {f : Disk → Except Fault Disk} {w : Workspace}
    {d : Disk} (changes : f w.disk = .ok d) :
    (Attempt.access activity (change f)).Gives w () { w with disk := d } := by
  rw [Attempt.Gives, Attempt.outcome_access, change_of_ok changes]

/-- Where a text was put in place as a whole, another text can be put. -/
theorem writeWhole_again {dir : Path} {name text : String} (h : Path.IsName name) {w w' : Workspace}
    (wrote : (FileSystem.writeWhole (dir.child name) text : Attempt (StateM Workspace) Unit).Gives
      w () w') {v : Workspace} (same : v.disk = w'.disk) (text' : String) :
    ∃ d, (FileSystem.writeWhole (dir.child name) text' : Attempt (StateM Workspace) Unit).Gives
      v () { v with disk := d } := by
  have h' := Path.isName_temporaryName h.noSeparator
  obtain ⟨upper, parent, -⟩ := Path.parent?_child dir h
  have ends := Path.fileName?_child dir h
  have beside := Path.withFileName_eq_child parent (temporaryName name)
  obtain ⟨g, written, d, grown, writes, moves, left⟩ := exists_of_writeWhole h wrote
  have disk : v.disk = d := by rw [same, left]
  obtain ⟨⟨place, reaches⟩, e, e', writesAgain, movesAgain⟩ :=
    Disk.replaced_again h grown writes moves text'
  have replaces : (FileSystem.replace (dir.child name) name text' :
      Attempt (StateM Workspace) Unit).Gives v () { v with disk := e' } :=
    (Attempt.gives_bind_iff _ _ _ _ _).mpr ⟨(), { v with disk := e },
      gives_access_change (disk ▸ writesAgain), gives_access_change movesAgain⟩
  refine ⟨e', ?_⟩
  rw [FileSystem.writeWhole_eq parent ends]
  split
  · exact replaces
  · rename_i given
    have there : v.disk.isDirectory upper = true := by
      rw [disk]
      exact Disk.isDirectory_of_resolves_child (by simpa using given) h' (beside ▸ reaches)
    refine (Attempt.gives_bind_iff _ _ _ _ _).mpr ⟨(), v, ?_, replaces⟩
    rw [Attempt.Gives, Attempt.outcome_access, makeDirectories_there there]

end Workspace

theorem Path.parent?_any_same {p dir out : Path} {name : String} (h : IsName name)
    (here : (out.child name).same p = true) : p.parent?.any dir.same = dir.same out := by
  have steps : p.components = out.components ++ [.name name] := by
    rw [← (same_iff _ _).mp here, components_child out h]
  have ends : p.fileName? = some name := by
    rw [fileName?, steps, List.getLast?_concat]
  obtain ⟨upper, parent, entry, -⟩ := parent?_of_fileName? ends
  have upperSteps : upper.components = out.components :=
    List.append_cancel_right (entry.symm.trans steps)
  rw [parent, Option.any_some, same, same, upperSteps]

namespace Documents

theorem hasDirectory_insert_of {docs : Documents} {dir : Path}
    (there : docs.hasDirectory dir = true) (path : Path) (document : Json) :
    (docs.insert path document).hasDirectory dir = true := by
  induction docs with
  | nil => simp [hasDirectory] at there
  | cons e docs ih =>
    obtain ⟨p, j⟩ := e
    simp only [hasDirectory, List.any_cons, Bool.or_eq_true] at there ih ⊢
    rw [insert]
    split
    · simpa using there
    · split
      · rw [List.any_cons, List.any_cons, Bool.or_eq_true, Bool.or_eq_true]
        exact Or.inr there
      · rw [List.any_cons, Bool.or_eq_true]
        exact there.imp_right ih

end Documents

theorem Store.found_insert_elsewhere {dir out : Path} {name : String} (h : Path.IsName name)
    (elsewhere : dir.same out = false) (pattern : Pattern) (docs : Documents) (document : Json) :
    found dir pattern (docs.insert (out.child name) document) = found dir pattern docs := by
  have outside {p : Path} (here : (out.child name).same p = true) :
      p.parent?.any dir.same = false := by
    rw [Path.parent?_any_same h here, elsewhere]
  have self : (out.child name).same (out.child name) = true := (Path.same_iff _ _).mpr rfl
  induction docs with
  | nil => simp [Documents.insert, found, Documents.inside, outside self]
  | cons e docs ih =>
    obtain ⟨p, j⟩ := e
    rw [Documents.insert]
    split
    · rename_i here
      have outsideHere : p.parent?.any dir.same = false := by
        apply outside
        rw [Path.same_iff] at here ⊢
        exact here.symm
      simp [found, Documents.inside, outsideHere]
    · split
      · simp [found, Documents.inside, outside self]
      · simp only [found, Documents.inside, List.filter_cons] at ih ⊢
        split
        · rw [List.filter_cons, List.filter_cons, ih]
        · exact ih

end ToolTrial
