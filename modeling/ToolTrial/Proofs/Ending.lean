import ToolTrial.Loading
import ToolTrial.Proofs.Store

/-!
How attempts end.  What is known of the ends of the parts of an attempt gives what is known of the
ends of the whole.  Loading leaves the state as it is, whether it succeeds or not.
-/

set_option autoImplicit false
set_option relaxedAutoImplicit false

namespace ToolTrial

namespace Attempt

variable {σ α β : Type}

/-- From a state an attempt comes to good ends when it succeeds and to bad ones when it fails. -/
structure Ends (attempt : Attempt (StateM σ) α) (s : σ) (good : α → σ → Prop)
    (bad : Failure → σ → Prop) : Prop where
  gives : ∀ a t, attempt.Gives s a t → good a t
  fails : ∀ f t, attempt.outcome s = (.error f, t) → bad f t

theorem outcome_bind_eq_error_iff (first : Attempt (StateM σ) α)
    (next : α → Attempt (StateM σ) β) (s t : σ) (f : Failure) :
    (first >>= next).outcome s = (.error f, t) ↔ first.outcome s = (.error f, t) ∨
      ∃ a u, first.Gives s a u ∧ (next a).outcome u = (.error f, t) := by
  rw [outcome_bind]
  unfold Gives
  rcases first.outcome s with ⟨g | a, u⟩
  · simp
  · constructor
    · exact fun failed => Or.inr ⟨a, u, rfl, failed⟩
    · rintro (failed | ⟨a', u', equal, failed⟩)
      · simp at failed
      · cases equal
        exact failed

section Ends

variable {attempt : Attempt (StateM σ) α} {next : α → Attempt (StateM σ) β} {s : σ}
  {good : α → σ → Prop} {good' : β → σ → Prop} {bad bad' : Failure → σ → Prop}

theorem Ends.bind (h : attempt.Ends s good bad)
    (succeeds : ∀ a t, good a t → (next a).Ends t good' bad') (worse : ∀ f t, bad f t → bad' f t) :
    (attempt >>= next).Ends s good' bad' := by
  constructor
  · intro b t given
    obtain ⟨a, u, first, second⟩ := (gives_bind_iff _ _ _ _ _).mp given
    exact (succeeds a u (h.gives a u first)).gives b t second
  · intro f t failed
    rcases (outcome_bind_eq_error_iff _ _ _ _ _).mp failed with first | ⟨a, u, first, second⟩
    · exact worse f t (h.fails f t first)
    · exact (succeeds a u (h.gives a u first)).fails f t second

theorem Ends.during (activity : Activity) (h : attempt.Ends s good bad)
    (worse : ∀ f t, bad f t → bad' (f.within activity) t) :
    (Attempt.during activity attempt).Ends s good bad' := by
  constructor
  · intro a t given
    exact h.gives a t ((gives_during_iff _ _ _ _ _).mp given)
  · intro f t failed
    rw [outcome_during] at failed
    rcases ended : attempt.outcome s with ⟨g | a, u⟩
    · rw [ended] at failed
      obtain ⟨rfl, rfl⟩ : g.within activity = f ∧ u = t := by simpa using failed
      exact worse g u (h.fails g u ended)
    · rw [ended] at failed
      simp at failed

theorem ends_pure {a : α} (reached : good a s) :
    (pure a : Attempt (StateM σ) α).Ends s good bad := by
  refine ⟨?_, by simp⟩
  rintro b t ⟨⟩
  exact reached

theorem ends_liftM (operation : StateM σ α) (s : σ) :
    (liftM operation : Attempt (StateM σ) α).Ends s (fun a t => operation s = (a, t)) bad := by
  refine ⟨?_, by simp⟩
  intro a t given
  obtain ⟨rfl, rfl⟩ := (gives_liftM_iff _ _ _ _).mp given
  rfl

section Access

variable {operation : StateM σ (Except Fault α)} {t : σ} (activity : Activity)

theorem ends_access_of_ok {a : α} (answers : operation s = (.ok a, t)) (reached : good a t) :
    (access activity operation).Ends s good bad := by
  have ended := outcome_access activity operation s
  rw [answers] at ended
  constructor
  · intro b u given
    obtain ⟨rfl, rfl⟩ := given.unique ended
    exact reached
  · intro f u failed
    simp [ended] at failed

theorem ends_access_of_error {fault : Fault} (answers : operation s = (.error fault, t))
    (left : bad ⟨[activity], .disk fault⟩ t) : (access activity operation).Ends s good bad := by
  have ended := outcome_access activity operation s
  rw [answers] at ended
  constructor
  · intro a u given
    exact absurd ended (given.outcome_ne_error _)
  · intro f u failed
    have same := ended.symm.trans failed
    obtain ⟨rfl, rfl⟩ : ⟨[activity], .disk fault⟩ = f ∧ t = u := by simpa using same
    exact left

end Access

theorem Steady.ends (h : attempt.Steady) (s : σ) :
    attempt.Ends s (fun a t => t = s ∧ attempt.Gives s a s)
      (fun f t => t = s ∧ attempt.outcome s = (.error f, s)) := by
  have left {result : Except Failure α} {t : σ} (ended : attempt.outcome s = (result, t)) :
      t = s := by
    rw [← h s, ended]
  constructor
  · intro a t given
    obtain rfl := left given
    exact ⟨rfl, given⟩
  · intro f t failed
    obtain rfl := left failed
    exact ⟨rfl, failed⟩

end Ends

end Attempt

section Loading

variable (kind : Store.Kind)

theorem steady_loadManifest (path : Path) : (loadManifest kind.store path).Steady :=
  (kind.steady_load path).bind fun _ => Attempt.steady_ofExcept _

theorem steady_loadRuns (dir : Path) (pattern : Pattern) :
    (loadRuns kind.store dir pattern).Steady :=
  ((kind.steady_loadAll dir pattern).during _).bind fun _ => Attempt.steady_ofExcept _

end Loading

end ToolTrial
