import ToolTrial.Proofs.Bench
import ToolTrial.Proofs.Renewal

/-!
A text that was put in place under any path.  It is read from that path, and it can be put in place
wherever a disk admits it.
-/

set_option autoImplicit false
set_option relaxedAutoImplicit false

namespace ToolTrial

open FileSystem (temporaryName)

namespace Disk

variable {d d' : Disk}

theorem readText_of_moved {g : Disk} {source target : Path} {text : String}
    (writes : g.writeText source text = .ok d) (moves : d.rename source target = .ok d') :
    d'.readText target = .ok text := by
  obtain ⟨written, reaches, -, free, rfl⟩ := writeText_eq_ok_iff.mp writes
  obtain ⟨sourcePlace, targetPlace, content, leaves, arrives, asks, moving, targetFree, rfl⟩ :=
    rename_eq_ok_iff.mp moves
  have given := ne_root_of_free free
  obtain rfl := ((keeps_put free _).leads reaches.leads).unique leaves.leads
  obtain rfl : content = .text text := by
    rw [lookup_put _ _ _ given, if_pos rfl] at moving
    simpa using moving.symm
  have targetGiven := ne_root_of_free targetFree
  generalize g.put written (.file (.text text)) = begun at *
  have sourceFree : begun.lookup written ≠ some .directory := by simp [moving]
  have keeps := keeps_move sourceFree targetFree (.file (.text text))
  refine readText_eq_ok_iff.mpr ⟨targetPlace, keeps.resolves arrives asks, ?_⟩
  rw [lookup_put _ _ _ targetGiven, if_pos rfl]

end Disk

namespace Workspace

open Attempt

variable {path : Path} {name text : String} {w w' : Workspace}

private theorem not_gives_refuse (r : Refusal) (u : Unit) :
    ¬ (Attempt.refuse r : Attempt (StateM Workspace) Unit).Gives w u w' := by
  intro given
  cases given

private theorem exists_parent_of_writeWhole
    (wrote : (FileSystem.writeWhole path text : Attempt (StateM Workspace) Unit).Gives w () w') :
    ∃ upper name, path.parent? = some upper ∧ path.fileName? = some name := by
  unfold FileSystem.writeWhole at wrote
  cases parent : path.parent? with
  | none =>
    simp only [parent] at wrote
    exact absurd wrote (not_gives_refuse _ _)
  | some upper =>
    cases ends : path.fileName? with
    | none =>
      simp only [parent, ends] at wrote
      split at wrote
      · obtain ⟨_, _, -, refused⟩ := (gives_bind_iff _ _ _ _ _).mp wrote
        exact absurd refused (not_gives_refuse _ _)
      · exact absurd wrote (not_gives_refuse _ _)
    | some name => exact ⟨upper, name, rfl, rfl⟩

theorem readText_of_writeWhole
    (wrote : (FileSystem.writeWhole path text : Attempt (StateM Workspace) Unit).Gives w () w') :
    w'.disk.readText path = .ok text := by
  obtain ⟨upper, name, parent, ends⟩ := exists_parent_of_writeWhole wrote
  rcases writeWhole_cases parent ends text w with
    ⟨_, _, _, _, _, _, failed⟩ | ⟨g, d, d', -, writes, moves, ended⟩
  · exact absurd failed (wrote.outcome_ne_error _)
  · obtain ⟨-, rfl⟩ := wrote.unique ended
    exact Disk.readText_of_moved writes moves

theorem exists_writeWhole_of_admits (admits : w.disk.Admits path name) (text : String) :
    ∃ d, (FileSystem.writeWhole path text : Attempt (StateM Workspace) Unit).Gives
      w () { w with disk := d } := by
  obtain ⟨beside, target, site⟩ := admits.exists_site
  obtain ⟨upper, parent, -, -⟩ := Path.parent?_of_fileName? admits.ends
  have given := Disk.ne_root_of_free site.freeBeside
  let begun := w.disk.put beside (.file (.text text))
  have writes : w.disk.writeText (path.withFileName (temporaryName name)) text = .ok begun :=
    Disk.writeText_eq_ok_iff.mpr
      ⟨beside, site.reachesBeside, site.asksForFileBeside, site.freeBeside, rfl⟩
  have keeps : Disk.Keeps w.disk begun := Disk.keeps_put site.freeBeside _
  have moving : begun.lookup beside = some (.file (.text text)) := by
    rw [Disk.lookup_put _ _ _ given, if_pos rfl]
  have targetFree : begun.lookup target ≠ some .directory := by
    rw [Disk.lookup_put _ _ _ given, if_neg site.apart.symm]
    exact site.free
  have moves := Disk.rename_eq_ok_iff.mpr ⟨beside, target, .text text,
    keeps.resolves site.reachesBeside site.asksForFileBeside,
    keeps.resolves site.reaches site.asksForFile, site.asksForFile, moving, targetFree, rfl⟩
  have replaces : (FileSystem.replace path name text : Attempt (StateM Workspace) Unit).Gives w ()
      { w with disk := (begun.erase beside).put target (.file (.text text)) } :=
    (gives_bind_iff _ _ _ _ _).mpr ⟨(), { w with disk := begun }, gives_access_change writes,
      gives_access_change moves⟩
  refine ⟨(begun.erase beside).put target (.file (.text text)), ?_⟩
  rw [FileSystem.writeWhole_eq parent admits.ends]
  split
  · exact replaces
  · rename_i named
    have there := admits.directoryThere upper parent (by simpa using named)
    refine (gives_bind_iff _ _ _ _ _).mpr ⟨(), w, ?_, replaces⟩
    rw [Gives, outcome_access, makeDirectories_there there]

end Workspace
end ToolTrial
