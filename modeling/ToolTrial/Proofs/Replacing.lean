import ToolTrial.Proofs.Accidents
import ToolTrial.Proofs.Placing

/-!
A text is put in place as a whole or not at all.  Whatever goes wrong on the way, the file in that
place holds what it held; when nothing does, it holds the text, and the file in which the text came
is gone.  No other file is touched.
-/

set_option autoImplicit false
set_option relaxedAutoImplicit false

namespace ToolTrial

open FileSystem (temporaryName)

namespace Disk

variable {d d' d'' : Disk} {path upper : Path} {name text : String} {q : Location}

/-- The place of the entry beside that of a path which has the name of a temporary file for it. -/
def Beside (d : Disk) (path : Path) (q : Location) : Prop :=
  ∃ place name, path.fileName? = some name ∧ d.Leads path (place ++ [name]) ∧
    q = place ++ [temporaryName name]

theorem Beside.ne_of_leads {place : Location} (h : d.Beside path q) (leads : d.Leads path place) :
    q ≠ place := by
  obtain ⟨front, name, -, leads', rfl⟩ := h
  obtain rfl := leads'.unique leads
  exact (ne_temporary front name).symm

theorem Keeps.beside (h : Keeps d d') (beside : d.Beside path q) : d'.Beside path q := by
  obtain ⟨place, name, ends, leads, rfl⟩ := beside
  exact ⟨place, name, ends, h.leads leads, rfl⟩

theorem beside_of_leads (ends : path.fileName? = some name)
    (leads : d.Leads (path.withFileName (temporaryName name)) q) : d.Beside path q := by
  obtain ⟨upper, parent, steps, noSeparator⟩ := Path.parent?_of_fileName? ends
  rw [Path.withFileName_eq_child parent,
    leads_child_iff upper (Path.isName_temporaryName noSeparator)] at leads
  obtain ⟨place, above, isDirectory, short, rfl⟩ := leads
  have shorter : name.utf8ByteSize ≤ nameLimit :=
    le_trans (by simp [temporaryName, String.utf8ByteSize_append]) short
  exact ⟨place, name, ends,
    (leads_iff_of_components_eq steps _).mpr ⟨place, above, isDirectory, shorter, rfl⟩, rfl⟩

namespace Spares

variable {exposed : Location → Prop}

theorem trans (h : Spares exposed d d') (h' : Spares exposed d' d'') : Spares exposed d d'' :=
  ⟨h.keeps.trans h'.keeps, fun hidden found => h'.lookup_eq hidden (h.lookup_eq hidden found)⟩

theorem of_grown (h : Grown d d') : Spares exposed d d' :=
  ⟨h.keeps, fun _ found => h.lookup_eq_some found⟩

end Spares

/-- A disk on which a text has taken the place of what was there. -/
structure Replaced (path : Path) (text : String) (d d' : Disk) : Prop where
  reads : d'.readText path = .ok text
  noneBeside : ∃ q, d'.Beside path q ∧ d'.lookup q = none
  spares : Spares (fun q => d'.Leads path q ∨ d'.Beside path q) d d'

/-- A disk on which what was in a place is still there. -/
structure Kept (path : Path) (d d' : Disk) : Prop where
  entry_eq : ∀ content, d.entry path = .ok (.file content) → d'.entry path = .ok (.file content)
  spares : Spares (d'.Beside path) d d'

theorem Kept.of_spares (h : Spares (d'.Beside path) d d') : Kept path d d' := by
  refine ⟨fun content found => ?_, h⟩
  obtain ⟨place, reaches, file⟩ := entry_eq_ok_iff.mp found
  have apart : ¬ d'.Beside path place := fun beside =>
    beside.ne_of_leads (h.keeps.leads reaches.leads) rfl
  have reaches' := h.keeps.resolves reaches (reaches.asksForFile content file)
  exact entry_eq_ok_iff.mpr ⟨place, reaches', h.lookup_eq apart file⟩

theorem Kept.refl (path : Path) (d : Disk) : Kept path d d :=
  .of_spares (.of_grown (.refl d))

theorem Kept.of_grown (h : Grown d d') : Kept path d d' :=
  .of_spares (.of_grown h)

theorem Kept.after_grown (grown : Grown d d') (h : Kept path d' d'') : Kept path d d'' :=
  .of_spares ((Spares.of_grown grown).trans h.spares)

theorem Replaced.after_grown (grown : Grown d d') (h : Replaced path text d' d'') :
    Replaced path text d d'' :=
  ⟨h.reads, h.noneBeside, (Spares.of_grown grown).trans h.spares⟩

theorem spares_of_writeContent {content : Content} (ends : path.fileName? = some name)
    (writes : d.writeContent (path.withFileName (temporaryName name)) content = .ok d') :
    Spares (d'.Beside path) d d' := by
  obtain ⟨place, reaches, -, free, rfl⟩ := writeContent_eq_ok_iff.mp writes
  have given := ne_root_of_free free
  have keeps := keeps_put free (.file content)
  refine ⟨keeps, fun {q} {content'} hidden found => ?_⟩
  rw [lookup_put _ _ _ given, if_neg, found]
  rintro rfl
  exact hidden (keeps.beside (beside_of_leads ends reaches.leads))

theorem replaced_of_moved (ends : path.fileName? = some name)
    (writes : d.writeText (path.withFileName (temporaryName name)) text = .ok d')
    (moves : d'.rename (path.withFileName (temporaryName name)) path = .ok d'') :
    Replaced path text d d'' := by
  have reads := readText_of_moved writes moves
  have begun := spares_of_writeContent ends writes
  obtain ⟨source, target, content, leaves, arrives, -, moving, free, rfl⟩ :=
    rename_eq_ok_iff.mp moves
  have beside := beside_of_leads ends leaves.leads
  have apart := beside.ne_of_leads arrives.leads
  have sourceFree : d'.lookup source ≠ some .directory := by simp [moving]
  have sourceGiven := ne_root_of_free sourceFree
  have targetGiven := ne_root_of_free free
  have keeps := keeps_move sourceFree free (.file content)
  refine ⟨reads, ⟨source, keeps.beside beside, ?_⟩, begun.keeps.trans keeps, ?_⟩
  · rw [lookup_put _ _ _ targetGiven, if_neg apart, lookup_erase _ _ _ sourceGiven, if_pos rfl]
  · intro q old hidden found
    rw [not_or] at hidden
    -- Both places are those that the paths lead to afterwards, since no directory was lost.
    have noTarget : q ≠ target := by
      rintro rfl
      exact hidden.1 (keeps.leads arrives.leads)
    have noSource : q ≠ source := by
      rintro rfl
      exact hidden.2 (keeps.beside beside)
    have before : ¬ d'.Beside path q := fun there => hidden.2 (keeps.beside there)
    rw [lookup_put _ _ _ targetGiven, if_neg noTarget, lookup_erase _ _ _ sourceGiven,
      if_neg noSource]
    exact begun.lookup_eq before found

end Disk

namespace AtRisk

open Attempt

variable {path : Path} {name : String}

/-- Writing a text beside its place and moving it there replaces what is in that place or keeps it,
whatever goes wrong. -/
theorem ends_replace (ends : path.fileName? = some name) (text : String) (t : AtRisk) :
    (FileSystem.replace path name text : Attempt (StateM AtRisk) Unit).Ends t
      (fun _ t' => Disk.Replaced path text t.disk t'.disk)
      (fun _ t' => Disk.Kept path t.disk t'.disk) := by
  let temporary := path.withFileName (temporaryName name)
  refine (ends_writeText (.writingTemporary temporary) temporary text t).bind
    (fun _ t₁ written => ?_) ?_
  · have begun := Disk.spares_of_writeContent ends written
    refine ⟨fun _ t₂ given => ?_, fun f t₂ failed => ?_⟩
    · have moved := (ends_rename (.replacing path) temporary path t₁).gives _ t₂ given
      exact Disk.replaced_of_moved ends written moved
    · have same := (ends_rename (.replacing path) temporary path t₁).fails f t₂ failed
      rw [same]
      exact .of_spares begun
  · rintro _ t₁ (same | ⟨content, opened⟩)
    · rw [same]
      exact .refl path t.disk
    · exact .of_spares (Disk.spares_of_writeContent ends opened)

/-- From every disk, under every path and whatever goes wrong on the way: when a text is put in
place it has replaced what was there, and nothing is left of the file in which it came; when that
fails, what was there is still there.  The other files are as they were. -/
theorem writeWhole_replaces_or_keeps (path : Path) (text : String) (t : AtRisk) :
    (FileSystem.writeWhole path text : Attempt (StateM AtRisk) Unit).Ends t
      (fun _ t' => Disk.Replaced path text t.disk t'.disk)
      (fun _ t' => Disk.Kept path t.disk t'.disk) := by
  have refused (r : Refusal) (t' : AtRisk) (grown : Disk.Grown t.disk t'.disk) :
      (Attempt.refuse r : Attempt (StateM AtRisk) Unit).Ends t'
        (fun _ t' => Disk.Replaced path text t.disk t'.disk)
        (fun _ t' => Disk.Kept path t.disk t'.disk) := by
    refine ⟨by rintro _ _ ⟨⟩, ?_⟩
    rintro _ _ ⟨⟩
    exact .of_grown grown
  cases parent : path.parent? with
  | none =>
    unfold FileSystem.writeWhole
    simp only [parent]
    exact refused _ t (.refl _)
  | some upper =>
    have makes := ends_makeDirectories (.creatingDirectory upper) upper t
    cases ends : path.fileName? with
    | none =>
      unfold FileSystem.writeWhole
      simp only [parent, ends]
      split
      · exact makes.bind (fun _ t' grown => refused _ t' grown) fun _ _ grown => .of_grown grown
      · exact refused _ t (.refl _)
    | some name =>
      rw [FileSystem.writeWhole_eq parent ends]
      split
      · exact ends_replace ends text t
      · refine makes.bind (fun _ t' grown => ?_) fun _ _ grown => .of_grown grown
        have replaces := ends_replace ends text t'
        exact ⟨fun u t'' given => (replaces.gives u t'' given).after_grown grown,
          fun f t'' failed => (replaces.fails f t'' failed).after_grown grown⟩

end AtRisk
end ToolTrial
