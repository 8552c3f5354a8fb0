import ToolTrial.Gate
import ToolTrial.Proofs.Receiving
import ToolTrial.Proofs.Rereading

/-!
The outputs of a gate.  It leaves them one after the other in one directory: documents in its store,
and the summary on the disk whatever the store is.  Of those that are left, each is where it
belongs, and nothing else has changed but what lay beside them on a disk.
-/

set_option autoImplicit false
set_option relaxedAutoImplicit false

namespace ToolTrial

open FileSystem (temporaryName)

inductive Output
  | document (j : Json)
  | text (s : String)

namespace Output

def document? : Output → Option Json
  | .document j => some j
  | .text _ => none

def text? : Output → Option String
  | .document _ => none
  | .text s => some s

def inFile : Output → String
  | .document j => j.savedText
  | .text s => s

end Output

namespace Stage

def inOrder : List Stage :=
  [.manifestLoad, .manifestValidation, .runLoad, .runValidation, .scoring, .summaryExport,
    .gateReport]

def output? : Stage → Option String
  | .manifestLoad => none
  | .manifestValidation => some Gate.manifestReportName
  | .runLoad => none
  | .runValidation => some Gate.runReportName
  | .scoring => some Gate.scoreName
  | .summaryExport => some Gate.summaryName
  | .gateReport => some Gate.gateReportName

def outputsBefore (stage : Stage) : List String :=
  (inOrder.takeWhile (· ≠ stage)).filterMap output?

end Stage

namespace Gate

def outputNames : List String := Stage.inOrder.filterMap Stage.output?

theorem isName_of_mem_outputNames {name : String} (h : name ∈ outputNames) : Path.IsName name := by
  simp only [outputNames, Stage.inOrder, Stage.output?, List.filterMap_cons, List.filterMap_nil,
    List.mem_cons, List.not_mem_nil, or_false] at h
  rcases h with rfl | rfl | rfl | rfl | rfl <;> exact ⟨by decide, by decide, by decide⟩

theorem nodup_outputNames : outputNames.Nodup := by decide

theorem ne_temporaryName {name other : String} (h : name ∈ outputNames) (h' : other ∈ outputNames) :
    name ≠ temporaryName other := by
  have none : ∀ name ∈ outputNames, ∀ other ∈ outputNames, name ≠ temporaryName other := by decide
  exact none name h other h'

theorem outputsBefore_prefix (stage : Stage) : stage.outputsBefore <+: outputNames := by
  apply List.IsPrefix.filterMap
  exact List.takeWhile_prefix _

theorem not_mem_outputsBefore (stage : Stage) : gateReportName ∉ stage.outputsBefore := by
  cases stage <;> decide

end Gate

namespace Store.Kind

def inMemoryOf : Kind → List (String × Output) → List (String × Json)
  | .inMemory, outputs => outputs.filterMap fun e => e.2.document?.map (Prod.mk e.1)
  | .onDisk _, _ => []

def onDiskOf : Kind → List (String × Output) → List (String × String)
  | .inMemory, outputs => outputs.filterMap fun e => e.2.text?.map (Prod.mk e.1)
  | .onDisk _, outputs => outputs.map fun e => (e.1, e.2.inFile)

/-- The document at a path of the store is the same in two workspaces, wherever the path leads. -/
def Spared : Kind → Workspace → Workspace → Path → Prop
  | .inMemory, w, w', path => w'.documents.lookup path = w.documents.lookup path
  | .onDisk _, w, w', path => ∀ q, w'.disk.Leads path q → Disk.SameFile w.disk w'.disk q

section Lists

variable (kind : Kind) {outputs : List (String × Output)}

theorem inMemoryOf_append (first second : List (String × Output)) :
    kind.inMemoryOf (first ++ second) = kind.inMemoryOf first ++ kind.inMemoryOf second := by
  cases kind with
  | inMemory => exact List.filterMap_append
  | onDisk depth => rfl

theorem onDiskOf_append (first second : List (String × Output)) :
    kind.onDiskOf (first ++ second) = kind.onDiskOf first ++ kind.onDiskOf second := by
  cases kind with
  | inMemory => exact List.filterMap_append
  | onDisk depth => exact List.map_append

theorem name_mem_of_inMemoryOf {e : String × Json} (member : e ∈ kind.inMemoryOf outputs) :
    e.1 ∈ outputs.map Prod.fst := by
  cases kind with
  | inMemory =>
    obtain ⟨o, inside, found⟩ := List.mem_filterMap.mp member
    obtain ⟨j, -, rfl⟩ := Option.map_eq_some_iff.mp found
    exact List.mem_map_of_mem inside
  | onDisk depth => simp [inMemoryOf] at member

theorem name_mem_of_onDiskOf {e : String × String} (member : e ∈ kind.onDiskOf outputs) :
    e.1 ∈ outputs.map Prod.fst := by
  cases kind with
  | inMemory =>
    obtain ⟨o, inside, found⟩ := List.mem_filterMap.mp member
    obtain ⟨s, -, rfl⟩ := Option.map_eq_some_iff.mp found
    exact List.mem_map_of_mem inside
  | onDisk depth =>
    obtain ⟨o, inside, rfl⟩ := List.mem_map.mp member
    exact List.mem_map_of_mem inside

end Lists
end Store.Kind

/-- The workspace `w'` after a gate has left outputs in a directory of `w`. -/
structure Left (kind : Store.Kind) (dir : Path) (outputs : List (String × Output))
    (w w' : Workspace) : Prop where
  documents : Documents.Received dir (kind.inMemoryOf outputs) w.documents w'.documents
  files : Disk.Received dir (kind.onDiskOf outputs) w.disk w'.disk

structure Workspace.Alike (w w' : Workspace) : Prop where
  documents : w'.documents = w.documents
  disk : w'.disk = w.disk

theorem Workspace.Alike.trans {w w' w'' : Workspace} (h : w.Alike w') (h' : w'.Alike w'') :
    w.Alike w'' :=
  ⟨h'.documents.trans h.documents, h'.disk.trans h.disk⟩

namespace Left

open Attempt
open Gate (outputNames)

variable {kind : Store.Kind} {dir : Path} {outputs : List (String × Output)} {name : String}
  {w v w' : Workspace}

theorem nil (kind : Store.Kind) (dir : Path) (h : w.Alike w') : Left kind dir [] w w' := by
  obtain ⟨documents, disk⟩ := h
  have noDocument : kind.inMemoryOf [] = [] := by cases kind <;> rfl
  have noFile : kind.onDiskOf [] = [] := by cases kind <;> rfl
  constructor
  · rw [noDocument, documents]
    exact Documents.received_nil dir _
  · rw [noFile, disk]
    exact Disk.received_nil dir _

theorem alike (h : Left kind dir outputs w v) (h' : v.Alike w') : Left kind dir outputs w w' := by
  constructor
  · rw [h'.documents]
    exact h.documents
  · rw [h'.disk]
    exact h.files

theorem concat {output : Output} (h : Left kind dir outputs w v)
    (h' : Left kind dir [(name, output)] v w')
    (ordered : outputs.map Prod.fst ++ [name] <+: outputNames) :
    Left kind dir (outputs ++ [(name, output)]) w w' := by
  have listed (other : String) (member : other ∈ outputs.map Prod.fst) : other ∈ outputNames :=
    ordered.subset (List.mem_append_left _ member)
  have last : name ∈ outputNames := ordered.subset (by simp)
  -- no stage comes twice, so the new output replaces none of those before it
  have new : name ∉ outputs.map Prod.fst := by
    have distinct := Gate.nodup_outputNames.sublist ordered.sublist
    have apart := (List.nodup_append.mp distinct).2.2
    intro old
    exact apart name old name List.mem_cons_self rfl
  have documentNames (e : String × Json) (member : e ∈ kind.inMemoryOf [(name, output)]) :
      e.1 = name := by
    simpa using kind.name_mem_of_inMemoryOf member
  have fileNames (e : String × String) (member : e ∈ kind.onDiskOf [(name, output)]) :
      e.1 = name := by
    simpa using kind.name_mem_of_onDiskOf member
  constructor
  · rw [kind.inMemoryOf_append]
    apply h.documents.append h'.documents
    · intro e member
      apply Gate.isName_of_mem_outputNames
      rcases List.mem_append.mp member with earlier | later
      · exact listed _ (kind.name_mem_of_inMemoryOf earlier)
      · rwa [documentNames e later]
    · intro e earlier e' later equal
      rw [documentNames e' later] at equal
      exact new (equal ▸ kind.name_mem_of_inMemoryOf earlier)
  · rw [kind.onDiskOf_append]
    apply h.files.append h'.files
    · intro e member
      apply Gate.isName_of_mem_outputNames
      rcases List.mem_append.mp member with earlier | later
      · exact listed _ (kind.name_mem_of_onDiskOf earlier)
      · rwa [fileNames e later]
    · intro e earlier e' later equal
      rw [fileNames e' later] at equal
      exact new (equal ▸ kind.name_mem_of_onDiskOf earlier)
    · intro e earlier e' later
      have known := listed _ (kind.name_mem_of_onDiskOf earlier)
      rw [fileNames e' later]
      exact ⟨(Gate.ne_temporaryName known last).symm, Gate.ne_temporaryName last known⟩

/-- What has not been left is as it was. -/
theorem spared (h : Left kind dir outputs w w') (ordered : outputs.map Prod.fst <+: outputNames)
    (listed : name ∈ outputNames) (new : name ∉ outputs.map Prod.fst) :
    kind.Spared w w' (dir.child name) := by
  have isName := Gate.isName_of_mem_outputNames listed
  cases kind with
  | inMemory =>
    apply h.documents.others
    intro e member
    have known := Store.Kind.name_mem_of_inMemoryOf _ member
    have isName' := Gate.isName_of_mem_outputNames (ordered.subset known)
    rw [← Bool.not_eq_true, Path.same_child_iff dir isName' isName]
    rintro rfl
    exact new known
  | onDisk depth =>
    intro q leads
    apply h.files.others
    intro e member touches
    have known := Store.Kind.name_mem_of_onDiskOf _ member
    have isName' := Gate.isName_of_mem_outputNames (ordered.subset known)
    rcases touches with leads' | leads'
    · obtain rfl := Disk.name_eq_of_leads isName' isName leads' leads
      exact new known
    · have besideName := Path.isName_temporaryName isName'.noSeparator
      have beside := Disk.name_eq_of_leads besideName isName leads' leads
      exact Gate.ne_temporaryName listed (ordered.subset known) beside.symm

theorem of_save (isName : Path.IsName name) {j : Json}
    (saved : (kind.store.save (dir.child name) j).Gives w () w') :
    Left kind dir [(name, .document j)] w w' := by
  cases kind with
  | inMemory =>
    have stored : (Store.inMemory.save (dir.child name) j).Gives w ()
        { w with documents := w.documents.insert (dir.child name) j } := rfl
    obtain ⟨-, rfl⟩ := saved.unique stored
    exact ⟨Documents.received_insert dir name j _, Disk.received_nil dir _⟩
  | onDisk depth =>
    rw [Store.Kind.onDisk_save_eq] at saved
    obtain ⟨files, documents⟩ := Workspace.received_of_writeWhole isName saved
    refine ⟨?_, files⟩
    rw [documents]
    exact Documents.received_nil dir _

theorem of_writeWhole (kind : Store.Kind) (isName : Path.IsName name) {s : String}
    (wrote : (FileSystem.writeWhole (dir.child name) s : Attempt (StateM Workspace) Unit).Gives
      w () w') : Left kind dir [(name, .text s)] w w' := by
  obtain ⟨files, documents⟩ := Workspace.received_of_writeWhole isName wrote
  have noDocument : kind.inMemoryOf [(name, .text s)] = [] := by cases kind <;> rfl
  have oneFile : kind.onDiskOf [(name, .text s)] = [(name, s)] := by cases kind <;> rfl
  constructor
  · rw [noDocument, documents]
    exact Documents.received_nil dir _
  · rwa [oneFile]

theorem keeps {j : Json} (h : Left kind dir outputs w w') (member : (name, .document j) ∈ outputs) :
    kind.Keeps w' (dir.child name) j := by
  cases kind with
  | inMemory => exact h.documents.given (name, j) (List.mem_filterMap.mpr ⟨_, member, rfl⟩)
  | onDisk depth => exact h.files.given (name, j.savedText) (List.mem_map.mpr ⟨_, member, rfl⟩)

theorem loadsAs {α : Type} {decode : Json.Decoder α} {j : Json} {a : α}
    (h : Left kind dir outputs w w') (member : (name, .document j) ∈ outputs)
    (readable : Json.Readable Json.GivenBack Json.depthLimit j) (decoded : decode j = .ok a) :
    (kind.store.loadAs decode (dir.child name)).Gives w' a w' := by
  rw [Store.loadAs, gives_bind_iff]
  refine ⟨j, w', Store.Kind.loads_of_keeps (h.keeps member) readable, ?_⟩
  rw [decoded]
  rfl

theorem readText {text : String} (h : Left kind dir outputs w w')
    (member : (name, .text text) ∈ outputs) :
    w'.disk.readText (dir.child name) = .ok text := by
  refine h.files.given (name, text) ?_
  cases kind with
  | inMemory => exact List.mem_filterMap.mpr ⟨_, member, rfl⟩
  | onDisk depth => exact List.mem_map.mpr ⟨_, member, rfl⟩

end Left
end ToolTrial
