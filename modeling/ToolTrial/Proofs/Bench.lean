import ToolTrial.Proofs.Files
import ToolTrial.Proofs.Sharing

/-!
Putting a text in place, step by step.  Once its directory is known to be there, a call works on two
places, that of the file and the one beside it, and on the files that have been opened: it opens a
file beside the place, fills it and moves it.  On these the steps of a call can be followed without
the rest of the disk.
-/

set_option autoImplicit false
set_option relaxedAutoImplicit false

namespace ToolTrial

open FileSystem (temporaryName)

/-- A path under which a text can be put in place: it names a file whose directory is there, and
neither at its place nor beside it there is a directory. -/
structure Disk.Admits (d : Disk) (path : Path) (name : String) : Prop where
  ends : path.fileName? = some name
  asksForFile : path.asksForDirectory = false
  directoryThere : ∀ upper, path.parent? = some upper → upper.text.isEmpty = false →
    d.isDirectory upper = true
  target : ∃ place, d.Resolves path place ∧ d.lookup place ≠ some .directory
  temporary : ∃ place, d.Resolves (path.withFileName (temporaryName name)) place ∧
    d.lookup place ≠ some .directory

/-- What a call has done: it has as many steps to go until it opens its file, it has opened or
filled it, or it has returned. -/
inductive Progress
  | ready (left : Nat)
  | opened (n : Nat)
  | filled
  | returned (result : Except Failure Unit)

/-- The files that have been opened, and what is beside a place and in it. -/
structure Bench where
  opened : List OpenFile
  beside : Option Entry
  inPlace : Option Entry

namespace Bench

variable (beside target : Location)

def openFile (b : Bench) : Nat × Bench :=
  let (n, opened) := OpenFile.openAt beside b.opened
  (n, { b with opened := opened, beside := some (.file (.text "")) })

def fill (n : Nat) (bytes : ByteArray) (b : Bench) : Bench :=
  match b.opened[n]? with
  | none => b
  | some file =>
    let written := OpenFile.overwrite bytes file.bytes
    let entry : Entry := .file (.ofBytes written)
    { opened := b.opened.set n { file with bytes := written }
      beside := if file.place = some beside then some entry else b.beside
      inPlace := if file.place = some target then some entry else b.inPlace }

def advance (path : Path) (text : String) : Progress → Bench → Bench × Progress
  | .ready (left + 1), b => (b, .ready left)
  | .ready 0, b => ((b.openFile beside).2, .opened (b.openFile beside).1)
  | .opened n, b => (b.fill beside target n text.toUTF8, .filled)
  | .filled, b =>
    match b.beside with
    | some entry =>
      (⟨b.opened.map (OpenFile.moved beside target), none, some entry⟩, .returned (.ok ()))
    | none => (b, .returned (.error ⟨[.replacing path], .disk .notFound⟩))
  | .returned result, b => (b, .returned result)

variable {beside target} {path : Path} {text : String} {b : Bench}

theorem advance_ready : b.advance beside target path text (.ready 0) =
    ((b.openFile beside).2, .opened (b.openFile beside).1) := rfl

theorem advance_opened (n : Nat) : b.advance beside target path text (.opened n) =
    (b.fill beside target n text.toUTF8, .filled) := rfl

theorem advance_of_there {entry : Entry} (there : b.beside = some entry) :
    b.advance beside target path text .filled =
      (⟨b.opened.map (OpenFile.moved beside target), none, some entry⟩, .returned (.ok ())) := by
  simp only [advance, there]

theorem advance_of_gone (gone : b.beside = none) : b.advance beside target path text .filled =
    (b, .returned (.error ⟨[.replacing path], .disk .notFound⟩)) := by
  simp only [advance, gone]

end Bench

namespace Disk

variable {d d' : Disk} {p : Path} {q : Location}

theorem Keeps.resolves (h : Keeps d d') (reaches : d.Resolves p q)
    (asks : p.asksForDirectory = false) : d'.Resolves p q :=
  ⟨reaches.named, reaches.noNul, reaches.short, h.leads reaches.leads, fun _ _ => asks⟩

theorem Keeps.isDirectory (h : Keeps d d') (isThere : d.isDirectory p = true) :
    d'.isDirectory p = true := by
  obtain ⟨place, reaches, found⟩ := isDirectory_iff.mp isThere
  have kept := h.directory place found
  refine isDirectory_iff.mpr ⟨place, ?_, kept⟩
  exact ⟨reaches.named, reaches.noNul, reaches.short, h.leads reaches.leads, by simp [kept]⟩

theorem entry_eq (reaches : d.Resolves p q) :
    d.entry p = (d.lookup q).elim (.error .notFound) .ok := by
  rw [entry, resolve_eq_ok_iff.mpr reaches]
  show (match d.lookup q with | some e => pure e | none => throw Fault.notFound) = _
  cases d.lookup q <;> rfl

structure Site (d : Disk) (path : Path) (name : String) (beside target : Location) : Prop where
  apart : beside ≠ target
  reaches : d.Resolves path target
  reachesBeside : d.Resolves (path.withFileName (temporaryName name)) beside
  asksForFile : path.asksForDirectory = false
  asksForFileBeside : (path.withFileName (temporaryName name)).asksForDirectory = false
  free : d.lookup target ≠ some .directory
  freeBeside : d.lookup beside ≠ some .directory

theorem Admits.exists_site {path : Path} {name : String} (admits : d.Admits path name) :
    ∃ beside target, d.Site path name beside target := by
  obtain ⟨target, reaches, free⟩ := admits.target
  obtain ⟨beside, reachesBeside, freeBeside⟩ := admits.temporary
  obtain ⟨upper, parent, -, noSeparator⟩ := Path.parent?_of_fileName? admits.ends
  have isName := Path.isName_temporaryName noSeparator
  have child := Path.withFileName_eq_child parent (temporaryName name)
  have apart : beside ≠ target := by
    rintro rfl
    have last := getLast?_of_leads reaches.leads admits.ends
    have lastBeside := getLast?_of_leads reachesBeside.leads
      (child ▸ Path.fileName?_child upper isName)
    exact temporaryName_ne name (Option.some.inj (lastBeside.symm.trans last))
  refine ⟨beside, target, apart, reaches, reachesBeside, admits.asksForFile, ?_, free, freeBeside⟩
  rw [child]
  exact Path.asksForDirectory_child upper isName

end Disk

/-- A shared disk on which a bench shows the places of a path, and which has kept all directories
of an earlier disk. -/
structure Shared.Shows (s : Shared) (d : Disk) (beside target : Location) (b : Bench) : Prop where
  keeps : Disk.Keeps d s.workspace.disk
  opened_eq : s.opened = b.opened
  beside_eq : s.workspace.disk.lookup beside = b.beside
  inPlace_eq : s.workspace.disk.lookup target = b.inPlace
  besideFree : b.beside ≠ some .directory
  inPlaceFree : b.inPlace ≠ some .directory
  inReach : ∀ f ∈ b.opened, ∀ place, f.place = some place → place = beside ∨ place = target

namespace Shared.Shows

variable {s : Shared} {d : Disk} {path : Path} {name : String} {beside target : Location}
  {b : Bench}

private theorem put (h : s.Shows d beside target b) {place : Location}
    (here : place = beside ∨ place = target) (content : Content) (opened : List OpenFile)
    (inReach : ∀ f ∈ opened, ∀ place, f.place = some place → place = beside ∨ place = target) :
    Shows ⟨{ s.workspace with disk := s.workspace.disk.put place (.file content) }, opened⟩
      d beside target
      ⟨opened, if place = beside then some (.file content) else b.beside,
        if place = target then some (.file content) else b.inPlace⟩ := by
  have free : s.workspace.disk.lookup place ≠ some .directory := by
    rcases here with rfl | rfl
    · rw [h.beside_eq]
      exact h.besideFree
    · rw [h.inPlace_eq]
      exact h.inPlaceFree
  have root := Disk.ne_root_of_free free
  refine ⟨h.keeps.trans (Disk.keeps_put free _), rfl, ?_, ?_, ?_, ?_, inReach⟩
  · simp only [Disk.lookup_put _ _ _ root, h.beside_eq, eq_comm]
  · simp only [Disk.lookup_put _ _ _ root, h.inPlace_eq, eq_comm]
  · show (if place = beside then some (.file content) else b.beside) ≠ some .directory
    split
    · simp
    · exact h.besideFree
  · show (if place = target then some (.file content) else b.inPlace) ≠ some .directory
    split
    · simp
    · exact h.inPlaceFree

theorem openFile (h : s.Shows d beside target b) (site : d.Site path name beside target) :
    ∃ s', s.openFile (path.withFileName (temporaryName name)) = .ok ((b.openFile beside).1, s') ∧
      s'.Shows d beside target (b.openFile beside).2 := by
  have reaches := h.keeps.resolves site.reachesBeside site.asksForFileBeside
  have writes : s.workspace.disk.writeText (path.withFileName (temporaryName name)) "" =
      .ok (s.workspace.disk.put beside (.file (.text ""))) := by
    refine Disk.writeText_eq_ok_iff.mpr ⟨beside, reaches, site.asksForFileBeside, ?_, rfl⟩
    rw [h.beside_eq]
    exact h.besideFree
  have opens := openFile_eq_ok writes (Disk.resolve_eq_ok_iff.mpr reaches)
  rw [h.opened_eq] at opens
  refine ⟨_, opens, ?_⟩
  have shows := h.put (Or.inl rfl) (.text "") (OpenFile.openAt beside b.opened).2 ?_
  · rwa [if_pos rfl, if_neg site.apart] at shows
  · intro f member
    rcases OpenFile.mem_openAt member with old | rfl
    · exact h.inReach f old
    · simp

theorem fill (h : s.Shows d beside target b) (n : Nat) (bytes : ByteArray) :
    (s.fill n bytes).Shows d beside target (b.fill beside target n bytes) := by
  unfold Shared.fill Bench.fill
  rw [h.opened_eq]
  cases found : b.opened[n]? with
  | none => exact h
  | some file =>
    let written := OpenFile.overwrite bytes file.bytes
    have inReach : ∀ f ∈ b.opened.set n { file with bytes := written },
        ∀ place, f.place = some place → place = beside ∨ place = target := by
      intro f inside
      rcases List.mem_or_eq_of_mem_set inside with old | rfl
      · exact h.inReach f old
      · exact h.inReach file (List.mem_of_getElem? found)
    obtain ⟨_ | place, old⟩ := file
    · exact ⟨h.keeps, rfl, h.beside_eq, h.inPlace_eq, h.besideFree, h.inPlaceFree, inReach⟩
    · have here := h.inReach ⟨some place, old⟩ (List.mem_of_getElem? found) place rfl
      have shows := h.put here (.ofBytes written) _ inReach
      simpa only [Option.some.injEq] using shows

theorem move (h : s.Shows d beside target b) (site : d.Site path name beside target)
    {content : Content} (there : b.beside = some (.file content)) :
    ∃ s', s.move (path.withFileName (temporaryName name)) path = .ok ((), s') ∧
      s'.Shows d beside target
        ⟨b.opened.map (OpenFile.moved beside target), none, some (.file content)⟩ := by
  have leaves := h.keeps.resolves site.reachesBeside site.asksForFileBeside
  have arrives := h.keeps.resolves site.reaches site.asksForFile
  have there' := h.beside_eq.trans there
  have free : s.workspace.disk.lookup target ≠ some .directory := by
    rw [h.inPlace_eq]
    exact h.inPlaceFree
  have renames : s.workspace.disk.rename (path.withFileName (temporaryName name)) path =
      .ok ((s.workspace.disk.erase beside).put target (.file content)) :=
    Disk.rename_eq_ok_iff.mpr
      ⟨beside, target, content, leaves, arrives, site.asksForFile, there', free, rfl⟩
  have freeBeside : s.workspace.disk.lookup beside ≠ some .directory := by simp [there']
  have root := Disk.ne_root_of_free free
  have rootBeside := Disk.ne_root_of_free freeBeside
  refine ⟨_, move_eq_ok renames (Disk.resolve_eq_ok_iff.mpr leaves)
    (Disk.resolve_eq_ok_iff.mpr arrives), h.keeps.trans (Disk.keeps_move freeBeside free _), ?_, ?_,
    ?_, by simp, by simp, ?_⟩
  · rw [h.opened_eq]
  · rw [Disk.lookup_put _ _ _ root, if_neg site.apart, Disk.lookup_erase _ _ _ rootBeside,
      if_pos rfl]
  · rw [Disk.lookup_put _ _ _ root, if_pos rfl]
  · intro f member place put
    obtain ⟨file, inside, rfl⟩ := List.mem_map.mp member
    unfold OpenFile.moved at put
    split at put
    · exact Or.inr (Option.some.inj put).symm
    · split at put
      · cases put
      · exact h.inReach file inside place put

theorem move_of_gone (h : s.Shows d beside target b) (site : d.Site path name beside target)
    (gone : b.beside = none) :
    s.move (path.withFileName (temporaryName name)) path = .error .notFound := by
  have leaves := h.keeps.resolves site.reachesBeside site.asksForFileBeside
  have arrives := h.keeps.resolves site.reaches site.asksForFile
  have missing := h.beside_eq.trans gone
  have fails : s.workspace.disk.rename (path.withFileName (temporaryName name)) path =
      .error .notFound := by
    rw [Disk.rename, Disk.resolve_eq_ok_iff.mpr leaves, Disk.resolve_eq_ok_iff.mpr arrives,
      site.asksForFile]
    simp only [bind, Except.bind, missing]
    rfl
  rw [Shared.move, fails]
  rfl

end Shared.Shows

namespace Course

variable {σ α : Type}

/-- A course that comes to a goal in so many steps and changes nothing on its way, whatever others
do that is safe. -/
def Nears (safe : σ → Prop) (goal : Course σ α) : Nat → Course σ α → Prop
  | 0, c => c = goal
  | left + 1, c => ∀ s, safe s → ∃ c', c.advance s = (s, c') ∧ Nears safe goal left c'

end Course

namespace FileSystem

/-- How many steps a call makes until it knows that the directory is there. -/
def leadIn (path : Path) : Nat :=
  if path.parent?.any (·.text.isEmpty) then 0 else 2

variable (path : Path) (name text : String)

def moving : Course Shared (Except Failure Unit) :=
  (Attempt.access (.replacing path) (rename (path.withFileName (temporaryName name)) path) :
    Attempt (Course Shared) Unit).run

def filling (n : Nat) : Course Shared (Except Failure Unit) :=
  .step (Shared.fill n text.toUTF8) fun _ => moving path name

theorem advance_replace {s s' : Shared} {n : Nat}
    (opens : s.openFile (path.withFileName (temporaryName name)) = .ok (n, s')) :
    (replace path name text : Attempt (Course Shared) Unit).run.advance s =
      (s', filling path name text n) := by
  let temporary := path.withFileName (temporaryName name)
  let rest (answer : Except Fault Nat) : Course Shared (Except Failure Unit) :=
    (Attempt.access (.writingTemporary temporary) (Shared.fillOpened text answer) :
      Attempt (Course Shared) Unit).run >>= ExceptT.bindCont fun _ =>
        Attempt.access (.replacing path) (rename temporary path)
  have answers : Shared.change (Shared.openFile temporary) s = (.ok n, s') := by
    rw [Shared.change, opens]
  show ((Shared.change (Shared.openFile temporary) s).2,
    rest (Shared.change (Shared.openFile temporary) s).1) = _
  rw [answers]
  rfl

theorem advance_moving (s : Shared) : (moving path name).advance s =
    match s.move (path.withFileName (temporaryName name)) path with
    | .ok (_, s') => (s', .done (.ok ()))
    | .error fault => (s, .done (.error ⟨[.replacing path], .disk fault⟩)) := by
  let temporary := path.withFileName (temporaryName name)
  let rest (answer : Except Fault Unit) : Course Shared (Except Failure Unit) :=
    (Attempt.access (.replacing path) (Course.done answer) : Attempt (Course Shared) Unit).run
  show ((Shared.change (Shared.move temporary path) s).2,
    rest (Shared.change (Shared.move temporary path) s).1) = _
  rw [Shared.change]
  cases s.move temporary path <;> rfl

private def afterAnswer (upper : Path) (outer : List Path) :
    Except Fault Unit → Course Shared (Except Fault Unit)
  | .ok () => return .ok ()
  | .error .notFound => do
    match ← makeLineage outer with
    | .ok () => settleDirectory upper
    | .error fault => return .error fault
  | .error fault => do
    if ← isDirectory upper then return .ok () else return .error fault

private theorem nears_makeDirectories {d : Disk} {upper : Path} (named : upper.text.isEmpty = false)
    (isThere : d.isDirectory upper = true) {α : Type}
    (next : Except Fault Unit → Course Shared α) :
    Course.Nears (fun s : Shared => Disk.Keeps d s.workspace.disk) (next (.ok ())) 2
      (makeDirectories upper >>= next) := by
  obtain ⟨outer, lineage⟩ : ∃ outer, upper.lineage = upper :: outer := by
    rw [Path.lineage, Path.upward, named]
    exact ⟨_, rfl⟩
  have steps : (makeDirectories upper : Course Shared (Except Fault Unit)) =
      makeDirectory upper >>= afterAnswer upper outer := by
    rw [makeDirectories, lineage]
    rfl
  rw [steps]
  intro s keeps
  have found := keeps.isDirectory isThere
  have answer : Shared.onWorkspace (makeDirectory upper) s = (.error .alreadyThere, s) := by
    have fails : s.workspace.disk.makeDirectory upper = .error .alreadyThere := by
      obtain ⟨place, reaches, directory⟩ := Disk.isDirectory_iff.mp found
      rw [Disk.makeDirectory, Disk.resolve_eq_ok_iff.mpr reaches]
      simp only [bind, Except.bind, directory]
      rfl
    show ((Workspace.change (·.makeDirectory upper) s.workspace).1,
      { s with workspace := (Workspace.change (·.makeDirectory upper) s.workspace).2 }) = _
    rw [Workspace.change_of_error fails]
  refine ⟨afterAnswer upper outer (.error .alreadyThere) >>= next, ?_, ?_⟩
  · show ((Shared.onWorkspace (makeDirectory upper) s).2,
      afterAnswer upper outer (Shared.onWorkspace (makeDirectory upper) s).1 >>= next) = _
    rw [answer]
  · intro s keeps
    have answer : Shared.onWorkspace (isDirectory upper) s = (true, s) := by
      show (s.workspace.disk.isDirectory upper, s) = _
      rw [keeps.isDirectory isThere]
    refine ⟨next (.ok ()), ?_, rfl⟩
    show ((Shared.onWorkspace (isDirectory upper) s).2,
      (if (Shared.onWorkspace (isDirectory upper) s).1 = true then
        Course.done (Except.ok ()) else Course.done (Except.error Fault.alreadyThere)) >>= next) = _
    rw [answer]
    rfl

theorem nears_writeWhole {d : Disk} (admits : d.Admits path name) :
    Course.Nears (fun s : Shared => Disk.Keeps d s.workspace.disk)
      (replace path name text : Attempt (Course Shared) Unit).run (leadIn path)
      (writeWhole path text : Attempt (Course Shared) Unit).run := by
  obtain ⟨upper, parent, -⟩ := Path.parent?_of_fileName? admits.ends
  rw [writeWhole_eq parent admits.ends, leadIn, parent, Option.any_some]
  cases named : upper.text.isEmpty with
  | true => exact rfl
  | false =>
    let next (answer : Except Fault Unit) : Course Shared (Except Failure Unit) :=
      (Attempt.access (.creatingDirectory upper) (Course.done answer) :
        Attempt (Course Shared) Unit).run >>= ExceptT.bindCont fun _ => replace path name text
    have steps : (Attempt.access (.creatingDirectory upper) (makeDirectories upper) >>= fun _ =>
        replace path name text : Attempt (Course Shared) Unit).run =
          makeDirectories upper >>= next := Course.bind_assoc _ _ _
    show Course.Nears _ (next (.ok ())) 2 _
    rw [if_neg Bool.false_ne_true, steps]
    exact nears_makeDirectories named (admits.directoryThere upper parent named) next

end FileSystem

/-- A call that has come as far as its progress says, on a disk that keeps the directories of
`d`. -/
def Progress.Is (d : Disk) (path : Path) (name text : String) :
    Progress → Course Shared (Except Failure Unit) → Prop
  | .ready left, c => Course.Nears (fun s : Shared => Disk.Keeps d s.workspace.disk)
      (FileSystem.replace path name text : Attempt (Course Shared) Unit).run left c
  | .opened n, c => c = FileSystem.filling path name text n
  | .filled, c => c = FileSystem.moving path name
  | .returned result, c => c = .done result

/-- The bench shows what a step of a call does. -/
theorem Shared.Shows.advance {s : Shared} {d : Disk} {path : Path} {name text : String}
    {beside target : Location} {b : Bench} (h : s.Shows d beside target b)
    (site : d.Site path name beside target) {progress : Progress}
    {c : Course Shared (Except Failure Unit)} (stage : progress.Is d path name text c) :
    (c.advance s).1.Shows d beside target (b.advance beside target path text progress).1 ∧
      (b.advance beside target path text progress).2.Is d path name text (c.advance s).2 := by
  cases progress with
  | ready left =>
    cases left with
    | zero =>
      obtain rfl : c = _ := stage
      obtain ⟨s', opens, shows⟩ := h.openFile site
      rw [FileSystem.advance_replace path name text opens]
      exact ⟨shows, rfl⟩
    | succ left =>
      obtain ⟨c', step, nears⟩ := stage s h.keeps
      rw [step]
      exact ⟨h, nears⟩
  | opened n =>
    obtain rfl : c = _ := stage
    exact ⟨h.fill n text.toUTF8, rfl⟩
  | filled =>
    obtain rfl : c = _ := stage
    rw [FileSystem.advance_moving]
    rcases there : b.beside with _ | _ | content
    · rw [h.move_of_gone site there, Bench.advance_of_gone there]
      exact ⟨h, rfl⟩
    · exact absurd there h.besideFree
    · obtain ⟨s', moves, shows⟩ := h.move site there
      rw [moves, Bench.advance_of_there there]
      exact ⟨shows, rfl⟩
  | returned result =>
    obtain rfl : c = _ := stage
    exact ⟨h, rfl⟩

end ToolTrial
