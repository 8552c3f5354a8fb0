import ToolTrial.Proofs.Drafting

/-!
Where drafts lie.  The path of a draft is that of an entry of the directory of drafts, under the
name that its identifier gives, and no two identifiers share a path.  Nothing happens at the seams
of an identifier that is put together from a task and a condition: it names a file when both of them
do.
-/

set_option autoImplicit false
set_option relaxedAutoImplicit false

namespace ToolTrial

/-- A path leads to the entry of a directory with the given name, however both are written. -/
structure Path.IsEntry (p dir : Path) (name : String) : Prop where
  parent : ∃ upper, p.parent? = some upper ∧ upper.same dir = true
  fileName_eq : p.fileName? = some name
  steps_eq : p.components = dir.components ++ [.name name]

theorem Path.isEntry_child (dir : Path) {name : String} (h : IsName name) :
    (dir.child name).IsEntry dir name := by
  obtain ⟨upper, parent, steps⟩ := parent?_child dir h
  exact ⟨⟨upper, parent, (same_iff upper dir).mpr steps⟩, fileName?_child dir h,
    components_child dir h⟩

/-- Entries that lead to one place have one name, whatever directories they are looked for in. -/
theorem Path.IsEntry.name_eq {p p' dir dir' : Path} {name name' : String}
    (entry : p.IsEntry dir name) (entry' : p'.IsEntry dir' name') (equal : p.same p' = true) :
    name = name' := by
  rw [same_iff] at equal
  have ends : p.fileName? = p'.fileName? := by
    rw [fileName?, fileName?, equal]
  rw [entry.fileName_eq, entry'.fileName_eq] at ends
  exact Option.some.inj ends

namespace Draft

theorem isEntry_of_path {dir place : Path} {runId : String} (drafted : path dir runId = .ok place) :
    place.IsEntry dir (documentName runId) := by
  obtain ⟨⟨-, safe⟩, rfl⟩ := (path_eq_ok_iff dir runId place).mp drafted
  have noSeparator := ((Identifier.fileSafe_iff runId).mp safe).1
  exact dir.isEntry_child (Path.isName_append noSeparator (by decide) (by decide))

theorem eq_of_same_path {dir dir' place place' : Path} {runId runId' : String}
    (drafted : path dir runId = .ok place) (drafted' : path dir' runId' = .ok place')
    (equal : place.same place' = true) : runId = runId' := by
  have named := (isEntry_of_path drafted).name_eq (isEntry_of_path drafted') equal
  exact (String.append_left_inj _).mp named

/-- Drafts stay in their directory: the identifier of a planned run names a file exactly when its
task and its condition do, what has a draft has it right inside the directory under a name of its
own, and with a manifest that is accepted every planned run has one. -/
theorem path_confined :
    (∀ (taskId conditionId : String) (n : Int), 1 ≤ n →
      (Identifier.fileSafe (PendingRun.idOf taskId conditionId n) = true ↔
        Identifier.fileSafe taskId = true ∧ Identifier.fileSafe conditionId = true)) ∧
    (∀ (dir : Path) (runId : String) (place : Path), path dir runId = .ok place →
      place.IsEntry dir (runId ++ ".json") ∧
        ∀ (dir' : Path) (runId' : String) (place' : Path), path dir' runId' = .ok place' →
          runId ≠ runId' → place.same place' = false) ∧
    ∀ (m : Manifest) (runs : List Run) (dir : Path), m.checkInvariants = .ok () →
      ∀ p ∈ (Worklist.ofRuns m runs).pendingRuns, ∃ place, path dir p.runId = .ok place ∧
        place.IsEntry dir (p.runId ++ ".json") := by
  refine ⟨?_, ?_, ?_⟩
  · intro taskId conditionId n _
    exact PendingRun.fileSafe_idOf_iff taskId conditionId n
  · intro dir runId place drafted
    refine ⟨isEntry_of_path drafted, ?_⟩
    intro dir' runId' place' drafted' apart
    rw [← Bool.not_eq_true]
    intro equal
    exact apart (eq_of_same_path drafted drafted' equal)
  · intro m runs dir accepted p pending
    have loadable := (Manifest.checkInvariants_eq_ok_iff m).mp accepted
    have drafted := path_eq_ok loadable pending dir
    exact ⟨_, drafted, isEntry_of_path drafted⟩

/-- A full stop at the end of a name meets no other one, not even that of the ending. -/
theorem path_confined_stops :
    Identifier.fileSafe (PendingRun.idOf "fix." ".plain" 7) = true ∧
      (∃ place, path ⟨"drafts/./"⟩ "." = .ok place ∧ place.IsEntry ⟨"drafts/./"⟩ "..json") ∧
      ∃ place, path ⟨"../drafts"⟩ "fix__plain__r01" = .ok place ∧
        place.IsEntry ⟨"../drafts"⟩ "fix__plain__r01.json" := by
  obtain ⟨seams, entries, planned⟩ := path_confined
  have accepted : Manifest.pair.checkInvariants = .ok () := by decide +kernel
  have pending :
      PendingRun.of "fix" "plain" 1 ∈ (Worklist.ofRuns Manifest.pair []).pendingRuns := by
    decide +kernel
  have drafted : path ⟨"drafts/./"⟩ "." = .ok ⟨"drafts/./..json"⟩ := by decide +kernel
  refine ⟨(seams "fix." ".plain" 7 (by decide)).mpr ⟨by decide, by decide⟩,
    ⟨_, drafted, (entries _ _ _ drafted).1⟩, ?_⟩
  exact planned Manifest.pair [] ⟨"../drafts"⟩ accepted _ pending

end Draft
end ToolTrial
