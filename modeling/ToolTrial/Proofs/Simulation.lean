import ToolTrial.Disk.Access

/-!
One program on two kinds of disk.  A relation that sequences keep, and in which each operation on
the one disk stands to the same operation on the other, holds between the two readings of a program
that is written in terms of operations.
-/

set_option autoImplicit false
set_option relaxedAutoImplicit false

namespace ToolTrial.FileSystem

/-- Programs that make and look for directories on one kind of disk, and go along with programs on
another one. -/
structure DirectorySimulation (m n : Type → Type) [Monad m] [FileSystem m] [Monad n]
    [FileSystem n] where
  Rel : {α : Type} → m α → n α → Prop
  pure {α : Type} (a : α) : Rel (Pure.pure a) (Pure.pure a)
  bind {α β : Type} {first : m α} {first' : n α} {next : α → m β} {next' : α → n β} :
    Rel first first' → (∀ a, Rel (next a) (next' a)) → Rel (first >>= next) (first' >>= next')
  isDirectory (dir : Path) : Rel (isDirectory dir : m Bool) (isDirectory dir)
  makeDirectory (dir : Path) : Rel (makeDirectory dir : m (Except Fault Unit)) (makeDirectory dir)

/-- Programs that also write and move files. -/
structure Simulation (m n : Type → Type) [Monad m] [FileSystem m] [Monad n] [FileSystem n] extends
    DirectorySimulation m n where
  writeText (path : Path) (text : String) :
    Rel (writeText path text : m (Except Fault Unit)) (writeText path text)
  rename (source target : Path) :
    Rel (rename source target : m (Except Fault Unit)) (rename source target)

variable {m n : Type → Type} [Monad m] [FileSystem m] [Monad n] [FileSystem n]

namespace DirectorySimulation

variable (S : DirectorySimulation m n)

private theorem orThere (dir : Path) (fault : Fault) :
    S.Rel (do if ← FileSystem.isDirectory dir then return .ok () else return .error fault :
        m (Except Fault Unit))
      (do if ← FileSystem.isDirectory dir then return .ok () else return .error fault) := by
  refine S.bind (S.isDirectory dir) fun isThere => ?_
  cases isThere <;> exact S.pure _

theorem makeLineage (dirs : List Path) :
    S.Rel (makeLineage dirs : m (Except Fault Unit)) (makeLineage dirs) := by
  induction dirs with
  | nil => exact S.pure _
  | cons dir outer ih =>
    refine S.bind (S.makeDirectory dir) ?_
    rintro (fault | _)
    · cases fault with
      | notFound =>
        refine S.bind ih ?_
        rintro (fault | _)
        · exact S.pure _
        · refine S.bind (S.makeDirectory dir) ?_
          rintro (fault | _)
          · exact S.orThere dir fault
          · exact S.pure _
      | _ => exact S.orThere dir _
    · exact S.pure _

end DirectorySimulation

namespace Simulation

variable (S : Simulation m n) {α β : Type}

private theorem access (activity : Activity) {operation : m (Except Fault α)}
    {operation' : n (Except Fault α)} (h : S.Rel operation operation') :
    S.Rel (Attempt.access activity operation).run (Attempt.access activity operation').run := by
  refine S.bind h ?_
  rintro (fault | a) <;> exact S.pure _

private theorem attempts {first : Attempt m α} {first' : Attempt n α} {next : α → Attempt m β}
    {next' : α → Attempt n β} (here : S.Rel first.run first'.run)
    (there : ∀ a, S.Rel (next a).run (next' a).run) :
    S.Rel (first >>= next).run (first' >>= next').run := by
  show S.Rel (first.run >>= ExceptT.bindCont next) (first'.run >>= ExceptT.bindCont next')
  refine S.bind here ?_
  rintro (failure | a)
  · exact S.pure _
  · exact there a

/-- Putting a text in place goes along with putting it in place. -/
theorem writeWhole (path : Path) (text : String) :
    S.Rel (writeWhole path text : Attempt m Unit).run
      (writeWhole path text : Attempt n Unit).run := by
  have refuses (r : Refusal) :
      S.Rel (Attempt.refuse r : Attempt m Unit).run (Attempt.refuse r : Attempt n Unit).run :=
    S.pure _
  have replaces (temporary : Path) : S.Rel (do
        Attempt.access (.writingTemporary temporary) (FileSystem.writeText temporary text)
        Attempt.access (.replacing path) (FileSystem.rename temporary path) : Attempt m Unit).run
      (do
        Attempt.access (.writingTemporary temporary) (FileSystem.writeText temporary text)
        Attempt.access (.replacing path) (FileSystem.rename temporary path) :
          Attempt n Unit).run :=
    S.attempts (S.access _ (S.writeText temporary text)) fun _ =>
      S.access _ (S.rename temporary path)
  unfold FileSystem.writeWhole
  cases path.parent? with
  | none => exact refuses _
  | some upper =>
    have makes := S.access (.creatingDirectory upper) (S.makeLineage upper.lineage)
    cases path.fileName? with
    | none =>
      dsimp only
      split
      · exact S.attempts makes fun _ => refuses _
      · exact refuses _
    | some name =>
      dsimp only
      split
      · exact S.attempts makes fun _ => replaces _
      · exact replaces _

end Simulation
end ToolTrial.FileSystem
