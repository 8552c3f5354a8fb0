import ToolTrial.Proofs.Store

/-!
What saving does to the documents that are there already.  A document that is saved takes the place
of the one that was at its path, and every other document of the kind that is loaded stays what it
was.  When saving fails, all of them stay what they were.
-/

set_option autoImplicit false
set_option relaxedAutoImplicit false

namespace ToolTrial.Store.Kind

open Attempt
open Pattern (documentNames)

/-- Two paths to one document. -/
def SamePlace : Kind → Workspace → Path → Path → Prop
  | .inMemory, _, p, q => p.same q = true
  | .onDisk _, w, p, q => ∃ place, w.disk.Leads p place ∧ w.disk.Leads q place

def Unchanged : Kind → Workspace → Workspace → Path → Prop
  | .inMemory, w, w', path => w'.documents.lookup path = w.documents.lookup path
  | .onDisk _, w, w', path => w'.disk.readText path = w.disk.readText path

/-- A directory that is there, as far as a store needs one to be. -/
def IsOpen : Kind → Workspace → Path → Prop
  | .inMemory, _, _ => True
  | .onDisk _, w, dir => ∃ place, w.disk.Leads dir place ∧ w.disk.lookup place = some .directory

/-- A path that has the name of a document, under which something can be read. -/
def Readable : Kind → Workspace → Path → Prop
  | .inMemory, _, _ => True
  | .onDisk _, w, path =>
    fits documentNames path = true ∧ ∃ text, w.disk.readText path = .ok text

/-- What a document that was saved in a directory has done to the documents that were readable. -/
structure Overwritten (kind : Kind) (dir : Path) (name : String) (document : Json)
    (w w' : Workspace) : Prop where
  isOpen : kind.IsOpen w' dir
  readable : ∀ path, kind.Readable w path → kind.Readable w' path
  samePlace_iff : ∀ path, kind.Readable w path → ∀ other, Path.IsName other →
    (kind.SamePlace w' path (dir.child other) ↔ kind.SamePlace w path (dir.child other))
  unchanged : ∀ path, kind.Readable w path → ¬ kind.SamePlace w path (dir.child name) →
    kind.Unchanged w w' path
  replaced : ∀ path, kind.Readable w path → kind.SamePlace w path (dir.child name) →
    (kind.store.load path).Gives w' document w'

section Laws

variable {kind : Kind} {w w' w'' : Workspace} {path : Path}

theorem Unchanged.refl (kind : Kind) (w : Workspace) (path : Path) : kind.Unchanged w w path := by
  cases kind <;> exact rfl

theorem Unchanged.trans (h : kind.Unchanged w w' path) (h' : kind.Unchanged w' w'' path) :
    kind.Unchanged w w'' path := by
  cases kind <;> exact Eq.trans h' h

theorem Unchanged.load {document : Json} (h : kind.Unchanged w w' path)
    (loads : (kind.store.load path).Gives w document w) :
    (kind.store.load path).Gives w' document w' := by
  cases kind with
  | inMemory =>
    obtain ⟨found, -⟩ := (inMemory_load_gives_iff path w w document).mp loads
    exact (inMemory_load_gives_iff path w' w' document).mpr ⟨Eq.trans h found, rfl⟩
  | onDisk depth =>
    obtain ⟨⟨text, read, parsed⟩, -⟩ := (loadFile_gives_iff path w w document).mp loads
    exact (loadFile_gives_iff path w' w' document).mpr ⟨⟨text, Eq.trans h read, parsed⟩, rfl⟩

theorem readable_of_loadAll {dir : Path} {docs : List (Path × Json)}
    (loads : (kind.store.loadAll dir documentNames).Gives w docs w') :
    kind.IsOpen w dir ∧ ∀ e ∈ docs, kind.Readable w e.1 := by
  cases kind with
  | inMemory => exact ⟨trivial, fun _ _ => trivial⟩
  | onDisk depth =>
    obtain ⟨isDirectory, ⟨entries, read, -, reads, rfl⟩, -⟩ :=
      (onDisk_loadAll_gives_iff depth dir documentNames w w' docs).mp loads
    obtain ⟨place, resolves, there⟩ := Disk.isDirectory_iff.mp isDirectory
    refine ⟨⟨place, resolves.leads, there⟩, fun e member => ?_⟩
    obtain ⟨file, listed, same, text, found, -⟩ :=
      exists_mem_of_forall₂ reads ((inOrder_perm read).mem_iff.mp member)
    rw [same]
    exact ⟨fits_of_mem_sought listed, text, found⟩

end Laws

variable {dir : Path} {name : String} {document : Json} {w : Workspace}

private theorem inMemory_overwrite (w : Workspace) (dir : Path) (name : String) (document : Json) :
    ∃ w', (Kind.inMemory.store.save (dir.child name) document).Gives w () w' ∧
      Overwritten .inMemory dir name document w w' := by
  refine ⟨{ w with documents := w.documents.insert (dir.child name) document }, rfl, trivial,
    fun _ _ => trivial, fun _ _ _ _ => Iff.rfl, fun path _ apart => ?_, fun path _ same => ?_⟩
  · show (w.documents.insert (dir.child name) document).lookup path = _
    rw [Documents.lookup_insert, if_neg]
    rwa [Path.same_iff, eq_comm, ← Path.same_iff]
  · refine (inMemory_load_gives_iff _ _ _ _).mpr ⟨?_, rfl⟩
    show (w.documents.insert (dir.child name) document).lookup path = _
    rw [Documents.lookup_insert, if_pos]
    rwa [Path.same_iff, eq_comm, ← Path.same_iff]

private theorem leads_child_iff_of_keeps {d d' : Disk} (keeps : Disk.Keeps d d')
    {place q : Location} (leads : d.Leads dir place)
    (isDirectory : d.lookup place = some .directory) {path : Path} (there : d.Leads path q)
    (h : Path.IsName name) :
    (∃ r, d'.Leads path r ∧ d'.Leads (dir.child name) r) ↔
      ∃ r, d.Leads path r ∧ d.Leads (dir.child name) r := by
  constructor
  · rintro ⟨r, there', child⟩
    obtain rfl := (keeps.leads there).unique there'
    obtain ⟨place', leads', -, short, rfl⟩ := (Disk.leads_child_iff dir h q).mp child
    obtain rfl := (keeps.leads leads).unique leads'
    exact ⟨_, there, (Disk.leads_child_iff dir h _).mpr ⟨place, leads, isDirectory, short, rfl⟩⟩
  · rintro ⟨r, there', child⟩
    exact ⟨r, keeps.leads there', keeps.leads child⟩

private theorem readText_of_stored {g d d' : Disk} {place : Location} {text : String}
    (h : Path.IsName name) (stored : Disk.Stored d g d' place name text)
    (leads : d.Leads dir place) (isDirectory : d.lookup place = some .directory)
    (short : name.utf8ByteSize ≤ Disk.nameLimit) {path : Path}
    (fits : fits documentNames path = true) {before : String}
    (read : d.readText path = .ok before) :
    ((∃ q, d.Leads path q ∧ d.Leads (dir.child name) q) → d'.readText path = .ok text) ∧
      ((¬ ∃ q, d.Leads path q ∧ d.Leads (dir.child name) q) →
        d'.readText path = .ok before) := by
  have child : d.Leads (dir.child name) (place ++ [name]) :=
    (Disk.leads_child_iff dir h _).mpr ⟨place, leads, isDirectory, short, rfl⟩
  constructor
  · rintro ⟨q, there, child'⟩
    obtain rfl := child.unique child'
    obtain ⟨q, resolves, content⟩ := Disk.readText_eq_ok_iff.mp read
    obtain rfl := there.unique resolves.leads
    exact Disk.readText_eq_ok_iff.mpr ⟨_, ⟨resolves.named, resolves.noNul, resolves.short,
      stored.spares.keeps.leads there, fun _ _ => resolves.asksForFile _ content⟩,
      stored.lookup_self⟩
  · intro apart
    refine stored.spares.readText_eq_ok read fun q _ there _ => not_or.mpr ⟨?_, ?_⟩
    · exact Disk.ne_temporary_of_leads fits there
    · rintro rfl
      exact apart ⟨_, there, child⟩

private theorem onDisk_overwrite {depth : Nat} (h : Path.IsName name)
    (readable : Json.Readable Json.GivenBack Json.depthLimit document)
    (isOpen : (Kind.onDisk depth).IsOpen w dir) :
    (∃ f fault w', ((Kind.onDisk depth).store.save (dir.child name) document).outcome w =
        (.error f, w') ∧ f.cause = .disk fault ∧
      ∀ path, (Kind.onDisk depth).Readable w path → (Kind.onDisk depth).Unchanged w w' path) ∨
    ∃ w', ((Kind.onDisk depth).store.save (dir.child name) document).Gives w () w' ∧
      Overwritten (.onDisk depth) dir name document w w' := by
  obtain ⟨place, leads, isDirectory⟩ := isOpen
  obtain ⟨upper, parent, -⟩ := Path.parent?_child dir h
  rw [onDisk_save_eq]
  rcases Workspace.writeWhole_cases parent (Path.fileName?_child dir h) document.savedText w with
    ⟨activity, fault, g, d, grown, begun, failed⟩ | ⟨g, written, d', grown, writes, moves, ended⟩
  · refine Or.inl ⟨_, fault, { w with disk := d }, failed, rfl, ?_⟩
    rintro path ⟨fits, text, read⟩
    have spares := Disk.spares_of_begun h grown begun leads
    show d.readText path = w.disk.readText path
    rw [read, spares.readText_eq_ok read fun q _ there _ => Disk.ne_temporary_of_leads fits there]
  · obtain ⟨place', stored, leads', -, -, resolves⟩ := Disk.stored_of_replaced h grown writes moves
    obtain rfl := (grown.keeps.leads leads).unique leads'
    obtain ⟨-, -, -, short, -⟩ := (Disk.leads_child_iff dir h _).mp resolves.leads
    have keeps := stored.spares.keeps
    refine Or.inr ⟨{ w with disk := d' }, ended,
      ⟨place, keeps.leads leads, keeps.directory place isDirectory⟩, ?_, ?_, ?_, ?_⟩
    · rintro path ⟨fits, text, read⟩
      have reads := readText_of_stored h stored leads isDirectory short fits read
      refine ⟨fits, ?_⟩
      by_cases same : ∃ q, w.disk.Leads path q ∧ w.disk.Leads (dir.child name) q
      · exact ⟨_, reads.1 same⟩
      · exact ⟨_, reads.2 same⟩
    · rintro path ⟨fits, text, read⟩ other h'
      obtain ⟨q, resolves, -⟩ := Disk.readText_eq_ok_iff.mp read
      exact leads_child_iff_of_keeps keeps leads isDirectory resolves.leads h'
    · rintro path ⟨fits, text, read⟩ apart
      exact ((readText_of_stored h stored leads isDirectory short fits read).2 apart).trans
        read.symm
    · rintro path ⟨fits, text, read⟩ same
      refine (loadFile_gives_iff _ _ _ _).mpr ⟨⟨document.savedText, ?_, ?_⟩, rfl⟩
      · exact (readText_of_stored h stored leads isDirectory short fits read).1 same
      · exact Json.read?_savedText readable

/-- Saving a document in a directory replaces the document at its path and no other one, or fails by
the disk that it is saved to and leaves all documents as they were. -/
theorem overwrite_cases (kind : Kind) (h : Path.IsName name)
    (readable : Json.Readable Json.GivenBack Json.depthLimit document)
    (isOpen : kind.IsOpen w dir) :
    (kind ≠ .inMemory ∧ ∃ f fault w',
      (kind.store.save (dir.child name) document).outcome w = (.error f, w') ∧
        f.cause = .disk fault ∧ ∀ path, kind.Readable w path → kind.Unchanged w w' path) ∨
    ∃ w', (kind.store.save (dir.child name) document).Gives w () w' ∧
      Overwritten kind dir name document w w' := by
  cases kind with
  | inMemory => exact Or.inr (inMemory_overwrite w dir name document)
  | onDisk depth =>
    rcases onDisk_overwrite h readable isOpen with failed | replaced
    · exact Or.inl ⟨by simp, failed⟩
    · exact Or.inr replaced

end ToolTrial.Store.Kind
