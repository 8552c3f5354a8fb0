import ToolTrial.Proofs.Access

/-!
Programs that share a disk.  A course is a program in steps, between which others may change the
disk.  Everything that it asks of a disk is a single step, but writing a text takes two: the file is
opened, which leaves nothing in it, and then it is filled.  A program keeps hold of a file that it
has opened, under whatever name the file goes by then.  A course that nobody disturbs does what the
program does on a workspace of its own.
-/

set_option autoImplicit false
set_option relaxedAutoImplicit false

namespace ToolTrial

/-- A program in steps.  A step changes the state and goes on as the state before it says. -/
inductive Course (σ α : Type)
  | done (a : α)
  | step (act : σ → σ) (next : σ → Course σ α)

namespace Course

variable {σ α β : Type}

def bind : Course σ α → (α → Course σ β) → Course σ β
  | .done a, f => f a
  | .step act next, f => .step act fun s => (next s).bind f

instance : Monad (Course σ) where
  pure := .done
  bind := bind

def atomically (operation : StateM σ α) : Course σ α :=
  .step (fun s => (operation s).2) fun s => .done (operation s).1

/-- One step of a course; there is none when it is done. -/
def advance : Course σ α → σ → σ × Course σ α
  | .done a, s => (s, .done a)
  | .step act next, s => (act s, next s)

def finish : Course σ α → StateM σ α
  | .done a, s => (a, s)
  | .step act next, s => (next s).finish (act s)

theorem bind_assoc {γ : Type} (c : Course σ α) (f : α → Course σ β) (g : β → Course σ γ) :
    c >>= f >>= g = c >>= fun a => f a >>= g := by
  induction c with
  | done a => rfl
  | step act next ih => exact congrArg (Course.step act) (funext fun s => ih s)

theorem finish_bind (c : Course σ α) (f : α → Course σ β) (s : σ) :
    (c >>= f).finish s = (f (c.finish s).1).finish (c.finish s).2 := by
  induction c generalizing s with
  | done a => rfl
  | step act next ih => exact ih s (act s)

end Course

def Content.ofBytes (bytes : ByteArray) : Content :=
  match String.fromUTF8? bytes with
  | some s => .text s
  | none => .undecodable

@[simp]
theorem Content.ofBytes_toUTF8 (s : String) : ofBytes s.toUTF8 = .text s := by
  have valid : s.toUTF8.IsValidUTF8 := s.isValidUTF8
  rw [ofBytes, String.fromUTF8?, dif_pos valid]
  rfl

/-- A file that a program has opened: where it is, unless another file has come to its place, and
what is in it. -/
structure OpenFile where
  place : Option Location
  bytes : ByteArray

namespace OpenFile

def overwrite (bytes old : ByteArray) : ByteArray :=
  bytes ++ old.extract bytes.size old.size

@[simp]
theorem overwrite_empty (bytes : ByteArray) : overwrite bytes .empty = bytes := by
  have nothing : ByteArray.empty.extract bytes.size 0 = .empty :=
    ByteArray.extract_eq_empty_iff.mpr (Nat.zero_le _)
  rw [overwrite, ByteArray.size_empty, nothing, ByteArray.append_empty]

theorem overwrite_of_size_le {bytes old : ByteArray} (covers : old.size ≤ bytes.size) :
    overwrite bytes old = bytes := by
  have nothing : old.extract bytes.size old.size = .empty :=
    ByteArray.extract_eq_empty_iff.mpr (by omega)
  rw [overwrite, nothing, ByteArray.append_empty]

theorem overwrite_overwrite (bytes old : ByteArray) :
    overwrite bytes (overwrite bytes old) = overwrite bytes old := by
  have rest : (overwrite bytes old).extract bytes.size (overwrite bytes old).size =
      old.extract bytes.size old.size := by
    rw [overwrite, ByteArray.size_append]
    exact ByteArray.extract_append_eq_right rfl rfl
  rw [overwrite, rest, overwrite]

/-- The files that are open after one has been opened at a place and nothing is left in it, and the
number of that one.  What is there is no other file when it is open already. -/
def openAt (place : Location) (opened : List OpenFile) : Nat × List OpenFile :=
  match opened.findIdx? fun f => f.place = some place with
  | some n => (n, opened.set n ⟨some place, .empty⟩)
  | none => (opened.length, opened ++ [⟨some place, .empty⟩])

theorem getElem?_openAt (place : Location) (opened : List OpenFile) :
    (openAt place opened).2[(openAt place opened).1]? = some ⟨some place, .empty⟩ := by
  unfold openAt
  cases known : opened.findIdx? fun f => f.place = some place with
  | none => simp
  | some n =>
    obtain ⟨inside, -⟩ := List.findIdx?_eq_some_iff_getElem.mp known
    simp [inside]

theorem mem_openAt {place : Location} {opened : List OpenFile} {f : OpenFile}
    (member : f ∈ (openAt place opened).2) : f ∈ opened ∨ f = ⟨some place, .empty⟩ := by
  unfold openAt at member
  split at member
  · exact List.mem_or_eq_of_mem_set member
  · simpa using member

/-- A file after one has been moved: that one is elsewhere, and one whose place it takes has
none. -/
def moved (source target : Location) (f : OpenFile) : OpenFile :=
  if f.place = some source then { f with place := some target }
  else if f.place = some target then { f with place := none }
  else f

end OpenFile

/-- A workspace that programs share, and the files that they have opened. -/
structure Shared where
  workspace : Workspace
  opened : List OpenFile

namespace Shared

variable {α : Type}

def onWorkspace (operation : StateM Workspace α) : StateM Shared α :=
  fun s => ((operation s.workspace).1, { s with workspace := (operation s.workspace).2 })

/-- A change that leaves everything as it was when it fails. -/
def change (f : Shared → Except Fault (α × Shared)) : StateM Shared (Except Fault α) :=
  fun s => match f s with
    | .ok (a, s') => (.ok a, s')
    | .error fault => (.error fault, s)

def openFile (p : Path) (s : Shared) : Except Fault (Nat × Shared) := do
  let disk ← s.workspace.disk.writeText p ""
  let place ← s.workspace.disk.resolve p
  let (n, opened) := OpenFile.openAt place s.opened
  return (n, ⟨{ s.workspace with disk := disk }, opened⟩)

theorem openFile_eq_ok {p : Path} {s : Shared} {disk : Disk} {place : Location}
    (writes : s.workspace.disk.writeText p "" = .ok disk)
    (reaches : s.workspace.disk.resolve p = .ok place) :
    openFile p s = .ok ((OpenFile.openAt place s.opened).1,
      ⟨{ s.workspace with disk := disk }, (OpenFile.openAt place s.opened).2⟩) := by
  rw [openFile, writes, reaches]
  rfl

def fill (n : Nat) (bytes : ByteArray) (s : Shared) : Shared :=
  match s.opened[n]? with
  | none => s
  | some file =>
    let written := OpenFile.overwrite bytes file.bytes
    let disk := match file.place with
      | some place => s.workspace.disk.put place (.file (.ofBytes written))
      | none => s.workspace.disk
    ⟨{ s.workspace with disk := disk }, s.opened.set n { file with bytes := written }⟩

def move (source target : Path) (s : Shared) : Except Fault (Unit × Shared) := do
  let disk ← s.workspace.disk.rename source target
  let sourcePlace ← s.workspace.disk.resolve source
  let targetPlace ← s.workspace.disk.resolve target
  return ((), ⟨{ s.workspace with disk := disk },
    s.opened.map (OpenFile.moved sourcePlace targetPlace)⟩)

theorem move_eq_ok {source target : Path} {s : Shared} {disk : Disk}
    {sourcePlace targetPlace : Location} (moves : s.workspace.disk.rename source target = .ok disk)
    (leaves : s.workspace.disk.resolve source = .ok sourcePlace)
    (arrives : s.workspace.disk.resolve target = .ok targetPlace) :
    move source target s = .ok ((), ⟨{ s.workspace with disk := disk },
      s.opened.map (OpenFile.moved sourcePlace targetPlace)⟩) := by
  rw [move, moves, leaves, arrives]
  rfl

def fillOpened (text : String) : Except Fault Nat → Course Shared (Except Fault Unit)
  | .error fault => .done (.error fault)
  | .ok n => .step (fill n text.toUTF8) fun _ => .done (.ok ())

instance : FileSystem (Course Shared) where
  readText path := .atomically (onWorkspace (FileSystem.readText path))
  isThere path := .atomically (onWorkspace (FileSystem.isThere path))
  isFile path := .atomically (onWorkspace (FileSystem.isFile path))
  isDirectory path := .atomically (onWorkspace (FileSystem.isDirectory path))
  makeDirectory path := .atomically (onWorkspace (FileSystem.makeDirectory path))
  writeText path text := .atomically (change (openFile path)) >>= fillOpened text
  rename source target := .atomically (change (move source target))
  entriesBelow depth dir := .atomically (onWorkspace (FileSystem.entriesBelow depth dir))
  timestamp := .atomically (onWorkspace FileSystem.timestamp)

end Shared

namespace FileSystem

variable {m : Type → Type} [Monad m] [FileSystem m]

/-- A text that is written beside its place and then moved there. -/
def replace (path : Path) (name text : String) : Attempt m Unit := do
  let temporary := path.withFileName (temporaryName name)
  Attempt.access (.writingTemporary temporary) (writeText temporary text)
  Attempt.access (.replacing path) (rename temporary path)

theorem writeWhole_eq {path upper : Path} {name : String} (parent : path.parent? = some upper)
    (ends : path.fileName? = some name) (text : String) :
    (writeWhole path text : Attempt m Unit) =
      if upper.text.isEmpty then replace path name text
      else Attempt.access (.creatingDirectory upper) (makeDirectories upper) >>= fun _ =>
        replace path name text := by
  unfold writeWhole replace
  simp only [parent, ends]
  cases upper.text.isEmpty <;> rfl

end FileSystem

/-- A course that does, undisturbed, what an operation does on a workspace. -/
def Course.Follows {α : Type} (c : Course Shared α) (operation : StateM Workspace α) : Prop :=
  ∀ s : Shared, ((c.finish s).1, (c.finish s).2.workspace) = operation s.workspace

namespace Shared

open Course (Follows)

variable {α β : Type}

private theorem follows_pure (a : α) : Follows (pure a) (pure a) :=
  fun _ => rfl

private theorem follows_bind {c : Course Shared α} {operation : StateM Workspace α}
    {next : α → Course Shared β} {next' : α → StateM Workspace β} (here : Follows c operation)
    (there : ∀ a, Follows (next a) (next' a)) : Follows (c >>= next) (operation >>= next') := by
  intro s
  have first := here s
  have second := there (c.finish s).1 (c.finish s).2
  show _ = (next' (operation s.workspace).1) (operation s.workspace).2
  rw [Course.finish_bind, second, ← first]

private theorem follows_onWorkspace (operation : StateM Workspace α) :
    Follows (.atomically (onWorkspace operation)) operation :=
  fun _ => rfl

private theorem writeText_cases (d : Disk) (p : Path) :
    (∃ fault, ∀ text, d.writeText p text = .error fault) ∨
      ∃ place, d.resolve p = .ok place ∧
        ∀ text, d.writeText p text = .ok (d.put place (.file (.text text))) := by
  unfold Disk.writeText Disk.writeContent
  cases d.resolve p with
  | error fault => exact Or.inl ⟨fault, fun _ => rfl⟩
  | ok place =>
    cases p.asksForDirectory with
    | true => exact Or.inl ⟨.isDirectory, fun _ => rfl⟩
    | false =>
      rcases found : d.lookup place with _ | _ | content
      · exact Or.inr ⟨place, rfl, fun _ => by simp [bind_eq_ok_iff, found, pure_eq_ok_iff]⟩
      · exact Or.inl ⟨.isDirectory, fun _ => by simp [bind, Except.bind, found]; rfl⟩
      · exact Or.inr ⟨place, rfl, fun _ => by simp [bind_eq_ok_iff, found, pure_eq_ok_iff]⟩

private theorem follows_writeText (path : Path) (text : String) :
    Follows (FileSystem.writeText path text) (FileSystem.writeText path text) := by
  intro s
  have steps : (FileSystem.writeText path text : Course Shared (Except Fault Unit)).finish s =
      match s.openFile path with
      | .error fault => (.error fault, s)
      | .ok (n, s') => (.ok (), s'.fill n text.toUTF8) := by
    show (fillOpened text (change (openFile path) s).1).finish (change (openFile path) s).2 = _
    rw [change]
    cases s.openFile path <;> rfl
  show _ = Workspace.change (·.writeText path text) s.workspace
  rw [steps]
  rcases writeText_cases s.workspace.disk path with ⟨fault, fails⟩ | ⟨place, reached, writes⟩
  · rw [openFile, fails, Workspace.change_of_error (fails text)]
    rfl
  · have file := OpenFile.getElem?_openAt place s.opened
    rw [openFile_eq_ok (writes "") reached, Workspace.change_of_ok (writes text)]
    simp only [fill, file, OpenFile.overwrite_empty, Content.ofBytes_toUTF8, Disk.put_put]

private theorem follows_rename (source target : Path) :
    Follows (FileSystem.rename source target) (FileSystem.rename source target) := by
  intro s
  have step : (FileSystem.rename source target : Course Shared (Except Fault Unit)).finish s =
      match s.move source target with
      | .error fault => (.error fault, s)
      | .ok (_, s') => (.ok (), s') := by
    show change (move source target) s = _
    rw [change]
    cases s.move source target <;> rfl
  show _ = Workspace.change (·.rename source target) s.workspace
  rw [step]
  cases moves : s.workspace.disk.rename source target with
  | error fault =>
    rw [move, moves, Workspace.change_of_error moves]
    rfl
  | ok disk =>
    obtain ⟨sourcePlace, targetPlace, -, leaves, arrives, -⟩ := Disk.rename_eq_ok_iff.mp moves
    rw [move_eq_ok moves (Disk.resolve_eq_ok_iff.mpr leaves) (Disk.resolve_eq_ok_iff.mpr arrives),
      Workspace.change_of_ok moves]

private def simulation : FileSystem.Simulation (Course Shared) (StateM Workspace) where
  Rel := Follows
  pure := follows_pure
  bind := follows_bind
  isDirectory _ := follows_onWorkspace _
  makeDirectory _ := follows_onWorkspace _
  writeText := follows_writeText
  rename := follows_rename

/-- A text that a course puts in place undisturbed is put in place as on a workspace. -/
theorem follows_writeWhole (path : Path) (text : String) :
    Follows (FileSystem.writeWhole path text : Attempt (Course Shared) Unit).run
      (FileSystem.writeWhole path text : Attempt (StateM Workspace) Unit).run :=
  simulation.writeWhole path text

end Shared
end ToolTrial
