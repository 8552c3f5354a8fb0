import Mathlib.Data.List.Perm.Basic
import ToolTrial.Proofs.Document
import ToolTrial.Proofs.Documents
import ToolTrial.Proofs.Files

/-!
The stores of a workspace: one that keeps documents in memory and one that keeps them in files.
Loading leaves the workspace as it is.  A document that is saved under a new name in a directory is
loaded with the others of that directory, if its name is one of a run file, and changes nothing else
that is seen of the directory.
-/

set_option autoImplicit false
set_option relaxedAutoImplicit false

namespace ToolTrial.Store

open Attempt
open Pattern (documentNames)

section OnDisk

private theorem outcome_readText (path : Path) (w : Workspace) :
    (Attempt.access (.reading path) (FileSystem.readText path) :
      Attempt (StateM Workspace) String).outcome w =
      match w.disk.readText path with
      | .ok text => (.ok text, w)
      | .error fault => (.error ⟨[.reading path], .disk fault⟩, w) := by
  have looked : (FileSystem.readText path : StateM Workspace (Except Fault String)) w =
      (w.disk.readText path, w) := rfl
  rw [outcome_access, looked]
  cases w.disk.readText path <;> rfl

theorem loadFile_gives_iff (path : Path) (w w' : Workspace) (document : Json) :
    (loadFile path : Attempt (StateM Workspace) Json).Gives w document w' ↔
      (∃ text, w.disk.readText path = .ok text ∧ Json.parse? text = some document) ∧ w = w' := by
  rw [Gives, loadFile, outcome_bind, outcome_readText]
  cases w.disk.readText path with
  | error fault => simp
  | ok text =>
    dsimp only
    cases parsed : Json.parse? text <;> simp [parsed]

theorem steady_loadFile (path : Path) :
    (loadFile path : Attempt (StateM Workspace) Json).Steady := by
  apply (steady_access (.reading path) fun _ => rfl).bind
  intro text
  cases Json.parse? text with
  | none => exact steady_throw _
  | some document => exact steady_pure _

def Reads (d : Disk) (file : Path) (e : Path × Json) : Prop :=
  e.1 = file ∧ ∃ text, d.readText file = .ok text ∧ Json.parse? text = some e.2

private theorem loadFiles_gives_iff (files : List Path) (w w' : Workspace)
    (docs : List (Path × Json)) :
    (files.mapM fun path => (do return (path, ← loadFile path) :
      Attempt (StateM Workspace) (Path × Json))).Gives w docs w' ↔
      List.Forall₂ (Reads w.disk) files docs ∧ w = w' := by
  have steady (file : Path) : (do return (file, ← loadFile file) :
      Attempt (StateM Workspace) (Path × Json)).Steady :=
    (steady_loadFile file).bind fun _ => steady_pure _
  have each (file : Path) (e : Path × Json) : (do return (file, ← loadFile file) :
      Attempt (StateM Workspace) (Path × Json)).Gives w e w ↔ Reads w.disk file e := by
    obtain ⟨path, document⟩ := e
    simp only [gives_bind_iff, gives_pure_iff, loadFile_gives_iff, Prod.mk.injEq, Reads]
    constructor
    · rintro ⟨found, _, ⟨read, rfl⟩, ⟨rfl, rfl⟩, -⟩
      exact ⟨rfl, read⟩
    · rintro ⟨rfl, read⟩
      exact ⟨document, w, ⟨read, rfl⟩, ⟨rfl, rfl⟩, rfl⟩
  rw [gives_mapM_iff fun file _ => steady file w]
  simp only [each]
  rw [and_comm, eq_comm]

private theorem outcome_entriesBelow (depth : Nat) (dir : Path)
    (next : List FoundEntry → Attempt (StateM Workspace) (List (Path × Json))) (w : Workspace) :
    (Attempt.access (.walking dir) (FileSystem.entriesBelow depth dir) >>= next).outcome w =
      match w.disk.entriesBelow depth dir with
      | .ok entries => (next entries).outcome w
      | .error fault => (.error ⟨[.walking dir], .disk fault⟩, w) := by
  have looked : (FileSystem.entriesBelow depth dir :
      StateM Workspace (Except Fault (List FoundEntry))) w = (w.disk.entriesBelow depth dir, w) :=
    rfl
  rw [outcome_bind, outcome_access, looked]
  cases w.disk.entriesBelow depth dir <;> rfl

private def readSought (pattern : Pattern) (entries : List FoundEntry) :
    Attempt (StateM Workspace) (List (Path × Json)) := do
  return inOrder (← (sought pattern entries).mapM fun path => do return (path, ← loadFile path))

private theorem readSought_gives_iff (pattern : Pattern) (entries : List FoundEntry)
    (w w' : Workspace) (docs : List (Path × Json)) :
    (readSought pattern entries).Gives w docs w' ↔
      (∃ read, List.Forall₂ (Reads w.disk) (sought pattern entries) read ∧
        inOrder read = docs) ∧ w = w' := by
  simp only [readSought, gives_bind_iff, gives_pure_iff, loadFiles_gives_iff]
  constructor
  · rintro ⟨read, _, ⟨reads, rfl⟩, ordered, rfl⟩
    exact ⟨⟨read, reads, ordered⟩, rfl⟩
  · rintro ⟨⟨read, reads, ordered⟩, rfl⟩
    exact ⟨read, w, ⟨reads, rfl⟩, ordered, rfl⟩

private theorem onDisk_loadAll_outcome (depth : Nat) (dir : Path) (pattern : Pattern)
    (w : Workspace) :
    ((onDisk depth).loadAll dir pattern : Attempt (StateM Workspace) _).outcome w =
      if w.disk.isDirectory dir = true then
        (Attempt.access (.walking dir) (FileSystem.entriesBelow (max 1 depth) dir) >>=
          readSought pattern).outcome w
      else (.error (Failure.refuse (.noDirectory dir)), w) := by
  have unfolded : ((onDisk depth).loadAll dir pattern :
      Attempt (StateM Workspace) (List (Path × Json))).outcome w =
      (if (!w.disk.isDirectory dir) = true then Attempt.refuse (.noDirectory dir) >>= fun _ =>
          Attempt.access (.walking dir) (FileSystem.entriesBelow (max 1 depth) dir) >>=
            readSought pattern
        else Attempt.access (.walking dir) (FileSystem.entriesBelow (max 1 depth) dir) >>=
          readSought pattern).outcome w := rfl
  rw [unfolded]
  cases w.disk.isDirectory dir <;> rfl

theorem onDisk_loadAll_gives_iff (depth : Nat) (dir : Path) (pattern : Pattern) (w w' : Workspace)
    (docs : List (Path × Json)) :
    ((onDisk depth).loadAll dir pattern : Attempt (StateM Workspace) _).Gives w docs w' ↔
      w.disk.isDirectory dir = true ∧
        (∃ entries read, w.disk.entriesBelow (max 1 depth) dir = .ok entries ∧
          List.Forall₂ (Reads w.disk) (sought pattern entries) read ∧ inOrder read = docs) ∧
        w = w' := by
  rw [Gives, onDisk_loadAll_outcome]
  cases w.disk.isDirectory dir with
  | false => simp
  | true =>
    rw [if_pos rfl, outcome_entriesBelow]
    cases w.disk.entriesBelow (max 1 depth) dir with
    | error fault => simp
    | ok entries =>
      have gives := readSought_gives_iff pattern entries w w' docs
      rw [Gives] at gives
      simp only [gives]
      simp

theorem inOrder_perm (documents : List (Path × Json)) : (inOrder documents).Perm documents :=
  List.mergeSort_perm _ _

end OnDisk

/-- Where the documents of a workspace are kept. -/
inductive Kind
  | inMemory
  | onDisk (depth : Nat)

namespace Kind

def store : Kind → Store (StateM Workspace)
  | .inMemory => Store.inMemory
  | .onDisk depth => Store.onDisk depth

/-- The store has a document at a path, whatever it holds. -/
def holds : Kind → Workspace → Path → Bool
  | .inMemory, w, path => (w.documents.lookup path).isSome
  | .onDisk _, w, path => w.disk.isFile path

def isThere (kind : Kind) (path : Path) : StateM Workspace Bool :=
  fun w => (kind.holds w path, w)

theorem steady_load (kind : Kind) (path : Path) : (kind.store.load path).Steady := by
  cases kind with
  | inMemory =>
    apply (steady_liftM fun _ => rfl : (liftM (get : StateM Workspace Workspace) :
      Attempt (StateM Workspace) Workspace).Steady).bind
    intro w
    cases w.documents.lookup path with
    | none => exact steady_refuse _
    | some document => exact steady_pure _
  | onDisk depth => exact steady_loadFile path

theorem steady_loadAll (kind : Kind) (dir : Path) (pattern : Pattern) :
    (kind.store.loadAll dir pattern).Steady := by
  cases kind with
  | inMemory =>
    apply (steady_liftM fun _ => rfl : (liftM (get : StateM Workspace Workspace) :
      Attempt (StateM Workspace) Workspace).Steady).bind
    intro w
    dsimp only
    split
    · exact (steady_refuse _).bind fun _ => steady_pure _
    · exact steady_pure _
  | onDisk depth =>
    apply (steady_liftM fun _ => rfl : (liftM (FileSystem.isDirectory dir : StateM Workspace Bool) :
      Attempt (StateM Workspace) Bool).Steady).bind
    intro isThere
    have finds : (Attempt.access (.walking dir) (FileSystem.entriesBelow (max 1 depth) dir) >>=
        readSought pattern).Steady := by
      apply (steady_access _ fun _ => rfl).bind
      intro entries
      have reads : ((sought pattern entries).mapM fun path => do return (path, ← loadFile path) :
          Attempt (StateM Workspace) (List (Path × Json))).Steady := by
        apply steady_mapM
        intro path
        exact (steady_loadFile path).bind fun _ => steady_pure _
      exact reads.bind fun _ => steady_pure _
    cases isThere with
    | false => exact (steady_refuse _).bind fun _ => finds
    | true => exact finds

theorem loadAll_steady {kind : Kind} {dir : Path} {pattern : Pattern} {w w' : Workspace}
    {docs : List (Path × Json)} (loads : (kind.store.loadAll dir pattern).Gives w docs w') :
    w' = w := by
  have left := kind.steady_loadAll dir pattern w
  rwa [loads] at left

/-- What is seen of a directory after a document was saved there under a new name: of the names of
drafts one more is taken, and the document is loaded with the others if its name fits. -/
structure Saved (kind : Kind) (dir : Path) (name : String) (document : Json)
    (docs : List (Path × Json)) (w w' : Workspace) : Prop where
  loads : ∃ docs', (kind.store.loadAll dir documentNames).Gives w' docs' w' ∧
    docs'.Perm (docs ++ if documentNames.isFoundIn name then [(dir.child name, document)] else [])
  holds : ∀ other, Path.IsName other → (∃ stem, other = stem ++ ".json") →
    kind.holds w' (dir.child other) = (decide (other = name) || kind.holds w (dir.child other))

variable {dir : Path} {name : String} {document : Json} {docs : List (Path × Json)} {w : Workspace}

private theorem inMemory_save (h : Path.IsName name)
    (loads : (Kind.inMemory.store.loadAll dir documentNames).Gives w docs w)
    (absent : Kind.inMemory.holds w (dir.child name) = false) :
    ∃ w', (Kind.inMemory.store.save (dir.child name) document).Gives w () w' ∧
      Saved .inMemory dir name document docs w w' := by
  have new : w.documents.lookup (dir.child name) = none := by
    simpa [Kind.holds] using absent
  obtain ⟨-, rfl, -⟩ := (inMemory_loadAll_gives_iff dir documentNames w w docs).mp loads
  let w' : Workspace := { w with documents := w.documents.insert (dir.child name) document }
  refine ⟨w', rfl, ?_, ?_⟩
  · refine ⟨found dir documentNames w'.documents, ?_, ?_⟩
    · exact (inMemory_loadAll_gives_iff _ _ _ _ _).mpr
        ⟨Or.inr (hasDirectory_insert dir h new document), rfl, rfl⟩
    · exact (found_insert_perm dir h documentNames new document).trans List.perm_append_comm
  · intro other isName _
    show ((w.documents.insert (dir.child name) document).lookup (dir.child other)).isSome = _
    rw [Documents.lookup_insert]
    by_cases equal : other = name
    · rw [if_pos ((Path.same_child_iff dir h isName).mpr equal.symm)]
      simp [equal]
    · rw [if_neg (mt (Path.same_child_iff dir h isName).mp (Ne.symm equal))]
      simp [equal, Kind.holds]

section Stored

variable {d g d' : Disk} {place : Location} {text : String}

private theorem sought_stored_perm (stored : Disk.Stored d g d' place name text)
    (h : Path.IsName name) (new : g.lookup (place ++ [name]) = none) {limit : Nat}
    (deep : 1 ≤ limit) (dir : Path) :
    (sought documentNames (d'.found place limit dir)).Perm
      (sought documentNames (d.found place limit dir) ++
        if documentNames.isFoundIn name then [dir.child name] else []) := by
  refine (Disk.sought_found_perm d' place limit dir documentNames).trans ?_
  rw [stored.files_eq new h deep dir]
  exact (Disk.sought_found_perm d place limit dir documentNames).symm.append_right _

private theorem reads_of_stored (stored : Disk.Stored d g d' place name text)
    (new : g.lookup (place ++ [name]) = none) {entries : List FoundEntry} {read : List (Path × Json)}
    (reads : List.Forall₂ (Reads d) (sought documentNames entries) read) :
    List.Forall₂ (Reads d') (sought documentNames entries) read := by
  have fit : ∀ file ∈ sought documentNames entries, fits documentNames file = true :=
    fun file member => fits_of_mem_sought member
  refine ((List.forall₂_and_left _ _).mpr ⟨fit, reads⟩).imp ?_
  rintro file e ⟨fits, same, text, read, parsed⟩
  exact ⟨same, text, stored.readText_eq_ok new fits read, parsed⟩

private theorem loads_of_stored {depth : Nat} (h : Path.IsName name)
    (stored : Disk.Stored w.disk g d' place name text)
    (new : g.lookup (place ++ [name]) = none) (leads : g.Leads dir place)
    (isThere : g.lookup place = some .directory)
    (resolves : d'.Resolves (dir.child name) (place ++ [name]))
    (isDirectory : w.disk.isDirectory dir = true) {entries : List FoundEntry}
    (listed : w.disk.entriesBelow (max 1 depth) dir = .ok entries) {read : List (Path × Json)}
    (reads : List.Forall₂ (Reads w.disk) (sought documentNames entries) read)
    (ordered : inOrder read = docs) (parsed : Json.parse? text = some document) :
    ∃ docs', ((Kind.onDisk depth).store.loadAll dir documentNames).Gives
        { w with disk := d' } docs' { w with disk := d' } ∧
      docs'.Perm (docs ++
        if documentNames.isFoundIn name then [(dir.child name, document)] else []) := by
  obtain ⟨place', atDirectory, -⟩ := Disk.isDirectory_iff.mp isDirectory
  obtain rfl := (stored.grown.keeps.leads atDirectory.leads).unique leads
  have isDirectory' := stored.keeps.directory _ isThere
  have atDirectory' : d'.Resolves dir place' :=
    ⟨atDirectory.named, atDirectory.noNul, atDirectory.short, stored.keeps.leads leads,
      fun content found => by simp [isDirectory'] at found⟩
  obtain rfl : w.disk.found place' (max 1 depth) dir = entries :=
    Except.ok.inj ((Disk.entriesBelow_eq atDirectory _).symm.trans listed)
  have added : List.Forall₂ (Reads d')
      (if documentNames.isFoundIn name then [dir.child name] else [])
      (if documentNames.isFoundIn name then [(dir.child name, document)] else []) := by
    split
    · have read := Disk.readText_eq_ok_iff.mpr ⟨_, resolves, stored.lookup_self⟩
      exact .cons ⟨rfl, text, read, parsed⟩ .nil
    · exact .nil
  obtain ⟨read', reads', again⟩ := List.perm_comp_forall₂
    (sought_stored_perm stored h new (Nat.le_max_left 1 depth) dir)
    (List.rel_append (reads_of_stored stored new reads) added)
  refine ⟨inOrder read', ?_, ?_⟩
  · exact (onDisk_loadAll_gives_iff depth dir documentNames _ _ _).mpr
      ⟨Disk.isDirectory_iff.mpr ⟨_, atDirectory', isDirectory'⟩,
        ⟨_, read', Disk.entriesBelow_eq atDirectory' _, reads', rfl⟩, rfl⟩
  · rw [← ordered]
    exact (inOrder_perm read').trans (again.trans ((inOrder_perm read).symm.append_right _))

end Stored

theorem onDisk_save_eq (depth : Nat) (path : Path) (document : Json) :
    (Kind.onDisk depth).store.save path document =
      FileSystem.writeWhole path document.savedText := by
  rw [Kind.store, Store.onDisk]

private theorem onDisk_save {depth : Nat} (h : Path.IsName name)
    (readable : Json.Readable Json.GivenBack Json.depthLimit document)
    (loads : ((Kind.onDisk depth).store.loadAll dir documentNames).Gives w docs w)
    (absent : (Kind.onDisk depth).holds w (dir.child name) = false) :
    (∃ f fault w', ((Kind.onDisk depth).store.save (dir.child name) document).outcome w =
      (.error f, w') ∧ f.cause = .disk fault) ∨
    ∃ w', ((Kind.onDisk depth).store.save (dir.child name) document).Gives w () w' ∧
      Saved (.onDisk depth) dir name document docs w w' := by
  obtain ⟨isDirectory, ⟨entries, read, listed, reads, ordered⟩, -⟩ :=
    (onDisk_loadAll_gives_iff depth dir documentNames w w docs).mp loads
  obtain ⟨upper, parent, -⟩ := Path.parent?_child dir h
  rw [onDisk_save_eq]
  rcases Workspace.writeWhole_cases parent (Path.fileName?_child dir h) document.savedText w with
    ⟨activity, fault, -, d, -, -, failed⟩ | ⟨g, written, d', grown, writes, moves, ended⟩
  · exact Or.inl ⟨_, fault, { w with disk := d }, failed, rfl⟩
  · right
    obtain ⟨place, stored, leads, isThere, asks, resolves⟩ :=
      Disk.stored_of_replaced h grown writes moves
    have new := stored.lookup_eq_none h leads isDirectory resolves asks absent
    refine ⟨{ w with disk := d' }, ended, ?_, ?_⟩
    · exact loads_of_stored h stored new leads isThere resolves isDirectory listed reads
        ordered (Json.read?_savedText readable)
    · intro other isName ⟨stem, spelled⟩
      show d'.isFile (dir.child other) = (_ || w.disk.isFile (dir.child other))
      by_cases equal : other = name
      · have isFile : d'.isFile (dir.child name) = true :=
          Disk.isFile_iff.mpr ⟨_, _, resolves, stored.lookup_self⟩
        simp [equal, isFile]
      · have apart : other ≠ FileSystem.temporaryName name := by
          intro same
          have last := congrArg (fun s => s.toList.getLast?) (spelled.symm.trans same)
          simp [FileSystem.temporaryName] at last
        rw [stored.isFile_child leads isDirectory isName equal apart]
        simp [equal]

/-- Saving a document under a new name fails by the disk or does no more than that. -/
theorem save_cases (kind : Kind) (h : Path.IsName name)
    (readable : Json.Readable Json.GivenBack Json.depthLimit document)
    (loads : (kind.store.loadAll dir documentNames).Gives w docs w)
    (absent : kind.holds w (dir.child name) = false) :
    (∃ f fault w', (kind.store.save (dir.child name) document).outcome w = (.error f, w') ∧
      f.cause = .disk fault) ∨
    ∃ w', (kind.store.save (dir.child name) document).Gives w () w' ∧
      Saved kind dir name document docs w w' := by
  cases kind with
  | inMemory => exact Or.inr (inMemory_save h loads absent)
  | onDisk depth => exact onDisk_save h readable loads absent

end Kind
end ToolTrial.Store
