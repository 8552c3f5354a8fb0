import ToolTrial.Proofs.Document
import ToolTrial.Proofs.Placing
import ToolTrial.Proofs.Store

/-!
What becomes of the floats of a document in a store.  In memory a document is kept as it is.  On a
disk it is kept as a text, and each float comes back as whatever that text is read as.
-/

set_option autoImplicit false
set_option relaxedAutoImplicit false

namespace ToolTrial.Store

open Attempt

theorem loadAs_gives_iff {σ α : Type} (store : Store (StateM σ)) (decode : Json.Decoder α)
    (path : Path) (s : σ) (a : α) : (store.loadAs decode path).Gives s a s ↔
      ∃ document, (store.load path).Gives s document s ∧ decode document = .ok a := by
  rw [loadAs, gives_bind_iff]
  refine exists_congr fun document => ⟨?_, ?_⟩
  · rintro ⟨u, loads, decoded⟩
    cases read : decode document with
    | ok b =>
      rw [read] at decoded
      obtain ⟨rfl, rfl⟩ := (gives_pure_iff _ _ _ _).mp decoded
      exact ⟨loads, rfl⟩
    | error e =>
      rw [read] at decoded
      cases decoded
  · rintro ⟨loads, decoded⟩
    refine ⟨s, loads, ?_⟩
    rw [decoded]
    rfl

namespace Kind

open Json (IsNumber Readable)

/-- What a store gives back in the place of a float, if it gives back anything. -/
def reread? : Kind → Float → Option Float
  | .inMemory, x => some x
  | .onDisk _, x => Json.reread? x

def reread (kind : Kind) (x : Float) : Float := (kind.reread? x).getD x

/-- A document is kept at a path: as it is in memory, and as its saved text on a disk. -/
def Keeps : Kind → Workspace → Path → Json → Prop
  | .inMemory, w, path, j => w.documents.lookup path = some j
  | .onDisk _, w, path, j => w.disk.readText path = .ok j.savedText

variable {kind : Kind} {w w' : Workspace} {path : Path} {j k : Json} {x : Float}

theorem isFinite_reread (kind : Kind) (x : Float) : (kind.reread x).isFinite = x.isFinite := by
  cases kind with
  | inMemory => rfl
  | onDisk depth =>
    rw [reread]
    cases read : (onDisk depth).reread? x with
    | none => rfl
    | some y =>
      obtain ⟨finite, finite'⟩ := Json.isFinite_of_reread? read
      rw [Option.getD_some, finite, finite']

theorem reread_eq_self (given : kind.reread? x = some x) : kind.reread x = x := by
  rw [reread, given, Option.getD_some]

theorem keeps_of_save (saved : (kind.store.save path j).Gives w () w') : kind.Keeps w' path j := by
  cases kind with
  | inMemory =>
    have stored : (Store.inMemory.save path j).Gives w ()
        { w with documents := w.documents.insert path j } := rfl
    obtain ⟨-, rfl⟩ := saved.unique stored
    show (w.documents.insert path j).lookup path = some j
    rw [Documents.lookup_insert, if_pos ((Path.same_iff path path).mpr rfl)]
  | onDisk depth =>
    rw [onDisk_save_eq] at saved
    exact Workspace.readText_of_writeWhole saved

/-- A document that is kept is loaded with the floats that its own come back as, unless one of them
does not come back at all. -/
theorem load_gives_iff (keeps : kind.Keeps w path j)
    (readable : Readable IsNumber Json.depthLimit j) : (kind.store.load path).Gives w k w ↔
      (∀ x ∈ j.floats, (kind.reread? x).isSome = true) ∧ k = j.mapFloats kind.reread := by
  cases kind with
  | inMemory =>
    have unchanged : j.mapFloats inMemory.reread = j :=
      Json.mapFloats_eq_self (readable.imp fun _ _ => rfl)
    have kept : w.documents.lookup path = some j := keeps
    have loads : (Store.inMemory.load path).Gives w k w ↔ k = j := by
      rw [inMemory_load_gives_iff, kept, Option.some.injEq, and_iff_left rfl, eq_comm]
    rw [unchanged]
    exact loads.trans (iff_and_self.mpr fun _ _ _ => rfl)
  | onDisk depth =>
    have kept : w.disk.readText path = .ok j.savedText := keeps
    have loads : ((onDisk depth).store.load path).Gives w k w ↔
        Json.parse? j.savedText = some k := by
      refine (loadFile_gives_iff path w w k).trans ?_
      simp [kept]
    exact loads.trans (Json.read?_savedText_eq_some_iff readable)

theorem load_gives_self_iff (keeps : kind.Keeps w path j)
    (readable : Readable IsNumber Json.depthLimit j) :
    (kind.store.load path).Gives w j w ↔ ∀ x ∈ j.floats, kind.reread? x = some x := by
  rw [load_gives_iff keeps readable]
  cases kind with
  | inMemory =>
    have unchanged : j.mapFloats inMemory.reread = j :=
      Json.mapFloats_eq_self (readable.imp fun _ _ => rfl)
    exact ⟨fun _ _ _ => rfl, fun _ => ⟨fun _ _ => rfl, unchanged.symm⟩⟩
  | onDisk depth =>
    exact (Json.read?_savedText_eq_some_iff readable).symm.trans
      (Json.read?_savedText_eq_self_iff readable)

theorem loads_of_keeps (keeps : kind.Keeps w path j)
    (readable : Readable Json.GivenBack Json.depthLimit j) :
    (kind.store.load path).Gives w j w := by
  have numbers : Readable IsNumber Json.depthLimit j :=
    readable.imp fun _ given => (Json.isFinite_of_reread? given).1
  refine (load_gives_self_iff keeps numbers).mpr fun x inside => ?_
  cases kind with
  | inMemory => rfl
  | onDisk depth => exact readable.forall_floats x inside

end Kind
end ToolTrial.Store
