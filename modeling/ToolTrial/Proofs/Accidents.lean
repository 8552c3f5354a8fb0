import ToolTrial.Proofs.Ending

/-!
Operations that go wrong by themselves.  A disk has its reasons for a fault, but an operation may
also fail without one; a write that fails may have opened its file by then, and something is left in
it.  Where nothing goes wrong, a program does what it does on a workspace.
-/

set_option autoImplicit false
set_option relaxedAutoImplicit false

namespace ToolTrial

/-- How an operation goes wrong: what it fails with, and what a write leaves in its file if it has
come to open it. -/
structure Accident where
  fault : Fault
  left : Option Content

/-- A workspace, and what lies ahead of the operations on it: each takes the next accident, if there
is one for it. -/
structure AtRisk where
  workspace : Workspace
  ahead : List (Option Accident)

namespace AtRisk

variable {α β : Type}

def disk (t : AtRisk) : Disk := t.workspace.disk

/-- An operation that has an accident, or does what it does on a workspace. -/
def risk (operation : StateM Workspace α) (spoilt : Accident → StateM Workspace α) :
    StateM AtRisk α := fun t =>
  let done := match t.ahead with
    | some accident :: _ => spoilt accident t.workspace
    | _ => operation t.workspace
  (done.1, ⟨done.2, t.ahead.tail⟩)

def fail (accident : Accident) : StateM Workspace (Except Fault α) :=
  fun w => (.error accident.fault, w)

/-- A failure after which a file holds something else, if it could be opened. -/
def spoil (path : Path) (accident : Accident) : StateM Workspace (Except Fault Unit) := fun w =>
  let opened := accident.left.bind fun content => (w.disk.writeContent path content).toOption
  (.error accident.fault, { w with disk := opened.getD w.disk })

instance : FileSystem (StateM AtRisk) where
  readText path := risk (FileSystem.readText path) fail
  isThere path := risk (FileSystem.isThere path) fun _ => pure false
  isFile path := risk (FileSystem.isFile path) fun _ => pure false
  isDirectory path := risk (FileSystem.isDirectory path) fun _ => pure false
  makeDirectory path := risk (FileSystem.makeDirectory path) fail
  writeText path text := risk (FileSystem.writeText path text) (spoil path)
  rename source target := risk (FileSystem.rename source target) fail
  entriesBelow depth dir := risk (FileSystem.entriesBelow depth dir) fail
  timestamp := risk FileSystem.timestamp fun _ => FileSystem.timestamp

/-- What goes along with an operation on a workspace when no accident lies ahead. -/
private def Calm (program : StateM AtRisk α) (operation : StateM Workspace α) : Prop :=
  ∀ w, program ⟨w, []⟩ = ((operation w).1, ⟨(operation w).2, []⟩)

private theorem calm_bind {first : StateM AtRisk α} {first' : StateM Workspace α}
    {next : α → StateM AtRisk β} {next' : α → StateM Workspace β} (here : Calm first first')
    (there : ∀ a, Calm (next a) (next' a)) : Calm (first >>= next) (first' >>= next') := by
  intro w
  show next (first ⟨w, []⟩).1 (first ⟨w, []⟩).2 = _
  rw [here w]
  exact there _ _

private def calm : FileSystem.Simulation (StateM AtRisk) (StateM Workspace) where
  Rel := Calm
  pure _ _ := rfl
  bind := calm_bind
  isDirectory _ _ := rfl
  makeDirectory _ _ := rfl
  writeText _ _ _ := rfl
  rename _ _ _ := rfl

theorem outcome_writeWhole_calm (path : Path) (text : String) (w : Workspace) :
    (FileSystem.writeWhole path text : Attempt (StateM AtRisk) Unit).outcome ⟨w, []⟩ =
      (((FileSystem.writeWhole path text : Attempt (StateM Workspace) Unit).outcome w).1,
        ⟨((FileSystem.writeWhole path text : Attempt (StateM Workspace) Unit).outcome w).2, []⟩) :=
  calm.writeWhole path text w

section Steps

open Attempt

private theorem risk_cases (operation : StateM Workspace α)
    (spoilt : Accident → StateM Workspace α) (t : AtRisk) :
    (∃ accident, risk operation spoilt t =
        ((spoilt accident t.workspace).1, ⟨(spoilt accident t.workspace).2, t.ahead.tail⟩)) ∨
      risk operation spoilt t =
        ((operation t.workspace).1, ⟨(operation t.workspace).2, t.ahead.tail⟩) := by
  unfold risk
  split
  · rename_i accident _ _
    exact Or.inl ⟨accident, rfl⟩
  · exact Or.inr rfl

private theorem spoil_cases (path : Path) (accident : Accident) (w : Workspace) :
    (spoil path accident w).2.disk = w.disk ∨
      ∃ content, w.disk.writeContent path content = .ok (spoil path accident w).2.disk := by
  unfold spoil
  cases accident.left with
  | none => exact Or.inl rfl
  | some content =>
    cases opened : w.disk.writeContent path content with
    | error fault =>
      left
      simp [opened, Except.toOption]
    | ok d =>
      right
      exact ⟨content, by simp [opened, Except.toOption]⟩

section Changes

open FileSystem (Changes)

variable {rel : Disk → Disk → Prop}

private theorem changes_risk {operation : StateM Workspace α}
    {spoilt : Accident → StateM Workspace α}
    (does : Changes (fun w w' : Workspace => rel w.disk w'.disk) operation)
    (spoils : ∀ accident, Changes (fun w w' : Workspace => rel w.disk w'.disk) (spoilt accident)) :
    Changes (fun t t' : AtRisk => rel t.disk t'.disk) (risk operation spoilt) := by
  intro t
  rcases risk_cases operation spoilt t with ⟨accident, answers⟩ | answers
  · rw [answers]
    exact spoils accident t.workspace
  · rw [answers]
    exact does t.workspace

variable (refl : ∀ d, rel d d) (makes : ∀ p d d', d.makeDirectory p = .ok d' → rel d d')

include refl in
private theorem changes_isDirectory (dir : Path) :
    Changes (fun t t' : AtRisk => rel t.disk t'.disk)
      (FileSystem.isDirectory dir : StateM AtRisk Bool) :=
  changes_risk (fun _ => refl _) fun _ _ => refl _

include refl makes

private theorem changes_makeDirectory (dir : Path) :
    Changes (fun t t' : AtRisk => rel t.disk t'.disk)
      (FileSystem.makeDirectory dir : StateM AtRisk (Except Fault Unit)) :=
  changes_risk (Workspace.changes_change refl (makes dir)) fun _ _ => refl _

variable (trans : ∀ d d' d'', rel d d' → rel d' d'' → rel d d'')
include trans

theorem changes_makeDirectories (dir : Path) :
    Changes (fun t t' : AtRisk => rel t.disk t'.disk)
      (FileSystem.makeDirectories dir : StateM AtRisk (Except Fault Unit)) := by
  have refl' (t : AtRisk) : rel t.disk t.disk := refl t.disk
  have trans' (t u v : AtRisk) : rel t.disk u.disk → rel u.disk v.disk → rel t.disk v.disk :=
    trans t.disk u.disk v.disk
  exact FileSystem.changes_makeLineage refl' trans' (changes_makeDirectory refl makes)
    (changes_isDirectory refl) dir.lineage

/-- Whatever goes wrong, putting a text in place does to a disk what its steps do to it. -/
theorem changes_writeWhole
    (writes : ∀ p content d d', d.writeContent p content = .ok d' → rel d d')
    (moves : ∀ source target d d', d.rename source target = .ok d' → rel d d')
    (path : Path) (text : String) :
    Changes (fun t t' : AtRisk => rel t.disk t'.disk)
      (FileSystem.writeWhole path text : Attempt (StateM AtRisk) Unit).run := by
  have refl' (t : AtRisk) : rel t.disk t.disk := refl t.disk
  have trans' (t u v : AtRisk) : rel t.disk u.disk → rel u.disk v.disk → rel t.disk v.disk :=
    trans t.disk u.disk v.disk
  refine FileSystem.changes_writeWhole refl' trans' (changes_makeDirectory refl makes)
    (changes_isDirectory refl) (fun path text => ?_) (fun source target => ?_) path text
  · refine changes_risk (Workspace.changes_change refl (writes path (.text text))) ?_
    intro accident w
    rcases spoil_cases path accident w with same | ⟨content, opened⟩
    · rw [same]
      exact refl _
    · exact writes path content _ _ opened
  · exact changes_risk (Workspace.changes_change refl (moves source target)) fun _ _ => refl _

end Changes

theorem ends_makeDirectories (activity : Activity) (dir : Path) (t : AtRisk) :
    (access activity (FileSystem.makeDirectories dir : StateM AtRisk (Except Fault Unit))).Ends t
      (fun _ t' => Disk.Grown t.disk t'.disk) (fun _ t' => Disk.Grown t.disk t'.disk) := by
  have grown := changes_makeDirectories Disk.Grown.refl (fun _ _ _ => Disk.grown_of_makeDirectory)
    (fun _ _ _ => Disk.Grown.trans) dir t
  rcases made : (FileSystem.makeDirectories dir : StateM AtRisk (Except Fault Unit)) t with
    ⟨fault | _, u⟩
  all_goals rw [made] at grown
  · exact ends_access_of_error activity made grown
  · exact ends_access_of_ok activity made grown

private theorem ends_risk_change (activity : Activity) (f : Disk → Except Fault Disk)
    {spoilt : Accident → StateM Workspace (Except Fault Unit)} (bad : Disk → Prop) {t : AtRisk}
    (unchanged : bad t.disk)
    (spoils : ∀ accident, ∃ fault w, spoilt accident t.workspace = (.error fault, w) ∧
      bad w.disk) :
    (access activity (risk (Workspace.change f) spoilt)).Ends t
      (fun _ t' => f t.disk = .ok t'.disk) (fun _ t' => bad t'.disk) := by
  rcases risk_cases (Workspace.change f) spoilt t with ⟨accident, answers⟩ | answers
  · obtain ⟨fault, w, failed, left⟩ := spoils accident
    rw [failed] at answers
    exact ends_access_of_error activity answers left
  · cases changed : f t.workspace.disk with
    | ok d =>
      rw [Workspace.change_of_ok changed] at answers
      exact ends_access_of_ok activity answers changed
    | error fault =>
      rw [Workspace.change_of_error changed] at answers
      exact ends_access_of_error activity answers unchanged

theorem ends_writeText (activity : Activity) (path : Path) (text : String) (t : AtRisk) :
    (access activity (FileSystem.writeText path text : StateM AtRisk (Except Fault Unit))).Ends t
      (fun _ t' => t.disk.writeText path text = .ok t'.disk)
      (fun _ t' => t'.disk = t.disk ∨
        ∃ content, t.disk.writeContent path content = .ok t'.disk) := by
  let Left (d : Disk) : Prop := d = t.disk ∨ ∃ content, t.disk.writeContent path content = .ok d
  exact ends_risk_change activity (·.writeText path text) Left (Or.inl rfl) fun accident =>
    ⟨accident.fault, _, rfl, spoil_cases path accident t.workspace⟩

theorem ends_rename (activity : Activity) (source target : Path) (t : AtRisk) :
    (access activity (FileSystem.rename source target : StateM AtRisk (Except Fault Unit))).Ends t
      (fun _ t' => t.disk.rename source target = .ok t'.disk) (fun _ t' => t'.disk = t.disk) :=
  ends_risk_change activity (·.rename source target) (· = t.disk) rfl fun accident =>
    ⟨accident.fault, t.workspace, rfl, rfl⟩

end Steps
end AtRisk
end ToolTrial
