import Mathlib.Data.List.Forall2
import ToolTrial.Disk.Access

/-!
Results and attempts.  A sequence of results succeeds when each of its members does.  An attempt
over a state gives a value when it succeeds with it; a sequence of attempts gives what its last
member gives, provided that each of them succeeds in the state that the one before it leaves.
-/

set_option autoImplicit false
set_option relaxedAutoImplicit false

namespace ToolTrial

theorem bind_eq_ok_iff {ε α β : Type} {first : Except ε α} {next : α → Except ε β} {b : β} :
    (first >>= next) = .ok b ↔ ∃ a, first = .ok a ∧ next a = .ok b := by
  cases first <;> simp [bind, Except.bind]

theorem bind_eq_error_iff {ε α β : Type} {first : Except ε α} {next : α → Except ε β} {e : ε} :
    (first >>= next) = .error e ↔ first = .error e ∨ ∃ a, first = .ok a ∧ next a = .error e := by
  cases first <;> simp [bind, Except.bind]

theorem pure_eq_ok_iff {ε α : Type} {a b : α} : (pure a : Except ε α) = .ok b ↔ a = b := by
  simp [pure, Except.pure]

theorem mapM_eq_ok_iff {ε α β : Type} {f : α → Except ε β} {as : List α} {bs : List β} :
    as.mapM f = .ok bs ↔ List.Forall₂ (fun a b => f a = .ok b) as bs := by
  induction as generalizing bs with
  | nil => cases bs <;> simp [pure, Except.pure]
  | cons a as ih =>
    simp only [List.mapM_cons, bind_eq_ok_iff, pure_eq_ok_iff, ih]
    constructor
    · rintro ⟨b, here, rest, there, rfl⟩
      exact .cons here there
    · rintro (_ | ⟨here, there⟩)
      exact ⟨_, here, _, there, rfl⟩

theorem exists_mem_of_forall₂ {α β : Type} {rel : α → β → Prop} {as : List α} {bs : List β}
    (related : List.Forall₂ rel as bs) {b : β} (member : b ∈ bs) : ∃ a ∈ as, rel a b := by
  induction related with
  | nil => simp at member
  | cons here _ ih =>
    rcases List.mem_cons.mp member with rfl | member
    · exact ⟨_, List.mem_cons_self, here⟩
    · obtain ⟨a, inside, partner⟩ := ih member
      exact ⟨a, List.mem_cons_of_mem _ inside, partner⟩

theorem exists_forall₂_iff {α β : Type} {rel : α → β → Prop} {as : List α} :
    (∃ bs, List.Forall₂ rel as bs) ↔ ∀ a ∈ as, ∃ b, rel a b := by
  induction as with
  | nil => simp
  | cons a as ih =>
    rw [List.forall_mem_cons, ← ih]
    constructor
    · rintro ⟨bs, each⟩
      rw [List.forall₂_cons_left_iff] at each
      obtain ⟨b, bs, first, others, rfl⟩ := each
      exact ⟨⟨b, first⟩, bs, others⟩
    · rintro ⟨⟨b, first⟩, bs, others⟩
      exact ⟨b :: bs, .cons first others⟩

theorem exists_forall₂_of_sublist {α β : Type} {rel : α → β → Prop} {as part : List α}
    {bs : List β} (related : List.Forall₂ rel as bs) (sublist : part.Sublist as) :
    ∃ others : List β, others.Sublist bs ∧ List.Forall₂ rel part others := by
  induction sublist generalizing bs with
  | slnil => exact ⟨[], List.nil_sublist _, .nil⟩
  | cons _ _ ih =>
    cases related with
    | cons _ later =>
      obtain ⟨others, sublist, partners⟩ := ih later
      exact ⟨others, .cons _ sublist, partners⟩
  | cons_cons _ _ ih =>
    cases related with
    | cons here later =>
      obtain ⟨others, sublist, partners⟩ := ih later
      exact ⟨_ :: others, .cons_cons _ sublist, .cons here partners⟩

namespace Attempt

variable {σ α β : Type}

def outcome (attempt : Attempt (StateM σ) α) (s : σ) : Except Failure α × σ :=
  attempt.run s

/-- From the state `s` the attempt succeeds with `a` and leaves the state `t`. -/
def Gives (attempt : Attempt (StateM σ) α) (s : σ) (a : α) (t : σ) : Prop :=
  attempt.outcome s = (.ok a, t)

@[simp]
theorem outcome_pure (a : α) (s : σ) : (pure a : Attempt (StateM σ) α).outcome s = (.ok a, s) :=
  rfl

@[simp]
theorem outcome_throw (f : Failure) (s : σ) :
    (throw f : Attempt (StateM σ) α).outcome s = (.error f, s) :=
  rfl

private theorem bind_apply (operation : StateM σ α) (next : α → StateM σ β) (s : σ) :
    (operation >>= next) s = next (operation s).1 (operation s).2 :=
  rfl

theorem outcome_bind (first : Attempt (StateM σ) α) (next : α → Attempt (StateM σ) β) (s : σ) :
    (first >>= next).outcome s =
      match first.outcome s with
      | (.ok a, t) => (next a).outcome t
      | (.error f, t) => (.error f, t) := by
  have split : (first >>= next).outcome s =
      (ExceptT.bindCont next (first.outcome s).1 (first.outcome s).2 : Except Failure β × σ) := rfl
  rw [split]
  rcases first.outcome s with ⟨_ | _, _⟩ <;> rfl

@[simp]
theorem outcome_liftM (operation : StateM σ α) (s : σ) :
    (liftM operation : Attempt (StateM σ) α).outcome s =
      (.ok (operation s).1, (operation s).2) :=
  rfl

@[simp]
theorem outcome_ofExcept (result : Except Failure α) (s : σ) :
    (ofExcept result : Attempt (StateM σ) α).outcome s = (result, s) :=
  rfl

theorem outcome_during (activity : Activity) (attempt : Attempt (StateM σ) α) (s : σ) :
    (during activity attempt).outcome s =
      match attempt.outcome s with
      | (.ok a, t) => (.ok a, t)
      | (.error f, t) => (.error (f.within activity), t) := by
  have answer : attempt.outcome s = attempt.run s := rfl
  show (attempt.run >>= _) s = _
  rw [bind_apply, answer]
  rcases attempt.run s with ⟨_ | _, _⟩ <;> rfl

theorem outcome_access (activity : Activity) (operation : StateM σ (Except Fault α)) (s : σ) :
    (access activity operation).outcome s =
      match operation s with
      | (.ok a, t) => (.ok a, t)
      | (.error fault, t) => (.error ⟨[activity], .disk fault⟩, t) := by
  show (operation >>= _) s = _
  rw [bind_apply]
  rcases operation s with ⟨_ | _, _⟩ <;> rfl

theorem gives_bind_iff (first : Attempt (StateM σ) α) (next : α → Attempt (StateM σ) β)
    (s t : σ) (b : β) :
    (first >>= next).Gives s b t ↔ ∃ a u, first.Gives s a u ∧ (next a).Gives u b t := by
  simp only [Gives, outcome_bind]
  rcases first.outcome s with ⟨_ | a, u⟩
  · simp
  · constructor
    · exact fun given => ⟨a, u, rfl, given⟩
    · rintro ⟨a', u', equal, given⟩
      cases equal
      exact given

@[simp]
theorem gives_during_iff (activity : Activity) (attempt : Attempt (StateM σ) α) (s t : σ) (a : α) :
    (during activity attempt).Gives s a t ↔ attempt.Gives s a t := by
  simp only [Gives, outcome_during]
  rcases attempt.outcome s with ⟨_ | _, _⟩ <;> simp

@[simp]
theorem gives_ofExcept_iff (result : Except Failure α) (s t : σ) (a : α) :
    (ofExcept result : Attempt (StateM σ) α).Gives s a t ↔ result = .ok a ∧ s = t := by
  simp [Gives]

@[simp]
theorem gives_pure_iff (s t : σ) (a b : α) :
    (pure a : Attempt (StateM σ) α).Gives s b t ↔ a = b ∧ s = t := by
  simp [Gives]

@[simp]
theorem gives_liftM_iff (operation : StateM σ α) (s t : σ) (a : α) :
    (liftM operation : Attempt (StateM σ) α).Gives s a t ↔
      (operation s).1 = a ∧ (operation s).2 = t := by
  simp [Gives]

/-- Attempts that leave the state as it is succeed along a list exactly when each of them does. -/
theorem gives_mapM_iff {f : α → Attempt (StateM σ) β} {as : List α} {s t : σ}
    (steady : ∀ a ∈ as, ((f a).outcome s).2 = s) (bs : List β) :
    (as.mapM f).Gives s bs t ↔ t = s ∧ List.Forall₂ (fun a b => (f a).Gives s b s) as bs := by
  induction as generalizing bs with
  | nil => cases bs <;> simp [eq_comm]
  | cons a as ih =>
    rw [List.forall_mem_cons] at steady
    simp only [List.mapM_cons, gives_bind_iff, gives_pure_iff]
    constructor
    · rintro ⟨b, u, here, rest, v, there, rfl, rfl⟩
      have stays : u = s := by
        have left := steady.1
        rw [here] at left
        exact left
      subst stays
      obtain ⟨left, others⟩ := (ih steady.2 rest).mp there
      exact ⟨left, .cons here others⟩
    · rintro ⟨rfl, _ | ⟨here, others⟩⟩
      exact ⟨_, _, here, _, _, (ih steady.2 _).mpr ⟨rfl, others⟩, rfl, rfl⟩

theorem gives_of_toOption_eq_some {attempt : Attempt (StateM σ) α} {s : σ} {a : α}
    (succeeds : (attempt.outcome s).1.toOption = some a) :
    attempt.Gives s a (attempt.outcome s).2 := by
  unfold Gives
  rcases ended : attempt.outcome s with ⟨_ | b, t⟩
  · simp [ended, Except.toOption] at succeeds
  · have equal : b = a := by simpa [ended, Except.toOption] using succeeds
    rw [equal]

theorem Gives.unique {attempt : Attempt (StateM σ) α} {s t u : σ} {a b : α}
    (h : attempt.Gives s a t) (h' : attempt.Gives s b u) : a = b ∧ t = u := by
  have equal := h.symm.trans h'
  simpa using equal

theorem Gives.outcome_ne_error {attempt : Attempt (StateM σ) α} {s t u : σ} {a : α}
    (given : attempt.Gives s a t) (f : Failure) : attempt.outcome s ≠ (.error f, u) := by
  rw [given]
  simp

def Steady (attempt : Attempt (StateM σ) α) : Prop :=
  ∀ s, (attempt.outcome s).2 = s

section Steady

variable {attempt : Attempt (StateM σ) α} {next : α → Attempt (StateM σ) β}

theorem steady_pure (a : α) : (pure a : Attempt (StateM σ) α).Steady := fun _ => rfl

theorem steady_throw (f : Failure) : (throw f : Attempt (StateM σ) α).Steady := fun _ => rfl

theorem steady_refuse (r : Refusal) : (refuse r : Attempt (StateM σ) α).Steady := fun _ => rfl

theorem steady_ofExcept (result : Except Failure α) :
    (ofExcept result : Attempt (StateM σ) α).Steady := fun _ => rfl

theorem steady_liftM {operation : StateM σ α} (h : ∀ s, (operation s).2 = s) :
    (liftM operation : Attempt (StateM σ) α).Steady := h

theorem Steady.bind (h : attempt.Steady) (h' : ∀ a, (next a).Steady) :
    (attempt >>= next).Steady := by
  intro s
  have left := h s
  rw [outcome_bind]
  rcases ended : attempt.outcome s with ⟨f | a, t⟩
  · rwa [ended] at left
  · rw [ended] at left
    obtain rfl : t = s := left
    exact h' a t

theorem Steady.during (activity : Activity) (h : attempt.Steady) :
    (Attempt.during activity attempt).Steady := by
  intro s
  have left := h s
  rw [outcome_during]
  rcases ended : attempt.outcome s with ⟨f | a, t⟩ <;> rwa [ended] at left

theorem steady_access (activity : Activity) {operation : StateM σ (Except Fault α)}
    (h : ∀ s, (operation s).2 = s) : (access activity operation).Steady := by
  intro s
  have left := h s
  rw [outcome_access]
  rcases ended : operation s with ⟨fault | a, t⟩ <;> rwa [ended] at left

theorem steady_mapM {f : α → Attempt (StateM σ) β} (h : ∀ a, (f a).Steady) (as : List α) :
    (as.mapM f).Steady := by
  induction as with
  | nil => exact steady_pure _
  | cons a as ih =>
    rw [List.mapM_cons]
    exact (h a).bind fun _ => ih.bind fun _ => steady_pure _

end Steady

end Attempt
end ToolTrial
