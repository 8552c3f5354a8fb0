import Mathlib.Data.List.GetD
import Mathlib.Data.List.Induction
import Mathlib.Logic.Relation
import ToolTrial.Cancellation

/-!
Who hears of a request to stop.  Tokens that are copies of each other, by however many steps in
either direction, are a family.  In every sequence of operations a token shows a request exactly
when one was made on its family before; it never comes to show one through another family, and does
not cease to show it.  The invariant is that tokens have one flag when they are of one family.
-/

set_option autoImplicit false
set_option relaxedAutoImplicit false

namespace ToolTrial.Tokens

inductive Operation
  | create
  | copy (token : Nat)
  | cancel (token : Nat)
  | ask (token : Nat)
  | check (token : Nat) (stage : String)
deriving DecidableEq

inductive Answer
  | made (token : Nat)
  | nothing
  | isCancelled (yes : Bool)
  | checked (result : Except Failure Unit)

def perform (t : Tokens) : Operation → Answer × Tokens
  | .create => (.made t.create.1, t.create.2)
  | .copy token => (.made (t.copy token).1, (t.copy token).2)
  | .cancel token => (.nothing, t.cancel token)
  | .ask token => (.isCancelled (t.isCancelled token), t)
  | .check token stage => (.checked (t.check token stage), t)

def after (t : Tokens) (steps : List Operation) : Tokens :=
  steps.foldl (fun t op => (t.perform op).2) t

def answers : Tokens → List Operation → List Answer
  | _, [] => []
  | t, op :: rest => (t.perform op).1 :: answers (t.perform op).2 rest

namespace Operation

def makes : Operation → Bool
  | create | copy _ => true
  | _ => false

def token? : Operation → Option Nat
  | create => .none
  | copy token | cancel token | ask token | check token _ => some token

end Operation

open Operation (makes)

def made (steps : List Operation) : Nat := steps.countP makes

/-- Operations that can be carried out from the start: each works on a token that is there. -/
def Possible (steps : List Operation) : Prop :=
  ∀ i, ∀ _ : i < steps.length, ∀ token ∈ steps[i].token?, token < made (steps.take i)

instance (steps : List Operation) : Decidable (Possible steps) :=
  inferInstanceAs (Decidable (∀ i, ∀ _ : i < steps.length, _))

def IsCopy (steps : List Operation) (token original : Nat) : Prop :=
  ∃ before rest, steps = before ++ .copy original :: rest ∧ token = made before

/-- Tokens that copies lead to from each other, in either direction. -/
def Family (steps : List Operation) : Nat → Nat → Prop := Relation.EqvGen (IsCopy steps)

section Histories

variable {steps before rest : List Operation} {op : Operation} {t : Tokens} {a b token : Nat}

theorem after_append (t : Tokens) (before rest : List Operation) :
    t.after (before ++ rest) = (t.after before).after rest := List.foldl_append

theorem getElem?_answers (t : Tokens) (before rest : List Operation) (op : Operation) :
    (t.answers (before ++ op :: rest))[before.length]? = some ((t.after before).perform op).1 := by
  induction before generalizing t with
  | nil => rfl
  | cons first before ih =>
    rw [List.cons_append, answers, List.length_cons, List.getElem?_cons_succ, ih]
    rfl

theorem made_concat (steps : List Operation) (op : Operation) :
    made (steps ++ [op]) = made steps + if makes op then 1 else 0 := by
  rw [made, List.countP_append, List.countP_singleton]
  rfl

theorem made_le_append (before rest : List Operation) : made before ≤ made (before ++ rest) := by
  rw [made, made, List.countP_append]
  exact Nat.le_add_right _ _

theorem Possible.of_append (possible : Possible (before ++ rest)) : Possible before := by
  intro i within
  have within' : i < (before ++ rest).length := by
    rw [List.length_append]
    exact Nat.lt_add_right _ within
  have fits := possible i within'
  rwa [List.getElem_append_left within, List.take_append_of_le_length (Nat.le_of_lt within)] at fits

theorem Possible.fits (possible : Possible (before ++ op :: rest)) :
    ∀ token ∈ op.token?, token < made before := by
  simpa using possible before.length (by simp)

theorem isCopy_concat_iff (steps : List Operation) (op : Operation) (token original : Nat) :
    IsCopy (steps ++ [op]) token original ↔
      IsCopy steps token original ∨ op = .copy original ∧ token = made steps := by
  constructor
  · rintro ⟨before, rest, split, rfl⟩
    rcases List.eq_nil_or_concat rest with rfl | ⟨rest, last, rfl⟩
    · obtain ⟨rfl, copied⟩ := List.append_inj' split rfl
      exact Or.inr ⟨(List.cons.inj copied).1, rfl⟩
    · rw [List.concat_eq_append, ← List.cons_append, ← List.append_assoc] at split
      exact Or.inl ⟨before, rest, (List.append_inj' split rfl).1, rfl⟩
  · rintro (⟨before, rest, rfl, rfl⟩ | ⟨rfl, rfl⟩)
    · exact ⟨before, rest ++ [op], by simp, rfl⟩
    · exact ⟨steps, [], rfl, rfl⟩

theorem Family.concat (h : Family steps a b) (op : Operation) : Family (steps ++ [op]) a b :=
  h.mono fun _ _ copied => (isCopy_concat_iff steps op _ _).mpr (Or.inl copied)

end Histories

/-- What the flags of the tokens have to do with the operations that led to them. -/
structure Tracks (steps : List Operation) (t : Tokens) : Prop where
  count_eq : t.flagOf.length = made steps
  hasFlag : ∀ a < made steps, t.flag a < t.flags.length
  copied : ∀ a b, IsCopy steps a b → (a < made steps ∧ b < made steps) ∧ t.flag a = t.flag b
  joined : ∀ a < made steps, ∀ b < made steps, t.flag a = t.flag b → Family steps a b
  asked : ∀ u, .cancel u ∈ steps → u < made steps
  isCancelled_iff : ∀ a < made steps,
    t.isCancelled a = true ↔ ∃ u, .cancel u ∈ steps ∧ t.flag u = t.flag a

section Steps

variable {steps : List Operation} {t : Tokens} {a token : Nat}

theorem flag_of_concat {t' : Tokens} {own : Nat} (added : t'.flagOf = t.flagOf ++ [own])
    (there : a < t.flagOf.length) : t'.flag a = t.flag a := by
  simp [flag, added, List.getElem?_append_left there, List.getElem?_eq_getElem there]

theorem flag_of_concat_self {t' : Tokens} {own : Nat} (added : t'.flagOf = t.flagOf ++ [own]) :
    t'.flag t.flagOf.length = own := by
  simp [flag, added]

theorem tracks_none : Tracks [] none := by
  refine ⟨rfl, by simp [made], ?_, by simp [made], by simp, by simp [made]⟩
  rintro a b ⟨before, rest, split, -⟩
  simp at split

private theorem Tracks.add {op : Operation} {t' : Tokens} {own : Nat} {more : List Bool}
    (h : Tracks steps t) (makes_ : makes op = true) (flagOf_eq : t'.flagOf = t.flagOf ++ [own])
    (flags_eq : t'.flags = t.flags ++ more) (hasFlag : own < t'.flags.length)
    (copied : ∀ b, op = .copy b → b < made steps ∧ own = t.flag b)
    (joined : ∀ b < made steps, own = t.flag b → Family (steps ++ [op]) (made steps) b)
    (isCancelled_iff : t'.flags.getD own false = true ↔
      ∃ u, .cancel u ∈ steps ∧ t.flag u = own) :
    Tracks (steps ++ [op]) t' := by
  have counted : made (steps ++ [op]) = made steps + 1 := by rw [made_concat, if_pos makes_]
  have oldOrNew {a : Nat} (there : a < made (steps ++ [op])) : a < made steps ∨ a = made steps := by
    omega
  have old {a : Nat} (there : a < made steps) : t'.flag a = t.flag a :=
    flag_of_concat flagOf_eq (h.count_eq ▸ there)
  have new : t'.flag (made steps) = own := h.count_eq ▸ flag_of_concat_self flagOf_eq
  have requested (u : Nat) :
      Operation.cancel u ∈ steps ++ [op] ↔ Operation.cancel u ∈ steps := by
    cases op <;> simp [makes] at makes_ ⊢
  refine ⟨?_, ?_, ?_, ?_, ?_, ?_⟩
  · rw [flagOf_eq, List.length_append, h.count_eq, counted]
    rfl
  · intro a there
    rcases oldOrNew there with earlier | rfl
    · have within := h.hasFlag a earlier
      rw [old earlier, flags_eq, List.length_append]
      omega
    · rwa [new]
  · intro a b copy
    rcases (isCopy_concat_iff steps op a b).mp copy with earlier | ⟨last, rfl⟩
    · obtain ⟨⟨first, second⟩, equal⟩ := h.copied a b earlier
      refine ⟨by omega, ?_⟩
      rw [old first, old second, equal]
    · obtain ⟨there, equal⟩ := copied b last
      refine ⟨by omega, ?_⟩
      rw [new, old there, equal]
  · -- two old tokens, an old one and the new one, or the new one twice
    intro a there b there' equal
    rcases oldOrNew there with earlier | rfl <;> rcases oldOrNew there' with earlier' | rfl
    · rw [old earlier, old earlier'] at equal
      exact (h.joined a earlier b earlier' equal).concat op
    · rw [old earlier, new] at equal
      exact (joined a earlier equal.symm).symm
    · rw [old earlier', new] at equal
      exact joined b earlier' equal
    · exact .refl _
  · intro u member
    have there := h.asked u ((requested u).mp member)
    omega
  · intro a there
    have shown (u : Nat) : (.cancel u ∈ steps ++ [op] ∧ t'.flag u = t'.flag a) ↔
        .cancel u ∈ steps ∧ t.flag u = t'.flag a := by
      rw [requested]
      exact and_congr_right fun member => by rw [old (h.asked u member)]
    simp only [isCancelled, shown]
    rcases oldOrNew there with earlier | rfl
    · rw [old earlier, flags_eq, List.getD_append _ _ _ _ (h.hasFlag a earlier)]
      exact h.isCancelled_iff a earlier
    · rwa [new]

private theorem Tracks.keep {op : Operation} {t' : Tokens} (h : Tracks steps t)
    (still : makes op = false) (flagOf_eq : t'.flagOf = t.flagOf)
    (length_eq : t'.flags.length = t.flags.length)
    (asked : ∀ u, op = .cancel u → u < made steps)
    (isCancelled_iff : ∀ a < made steps, t'.isCancelled a = true ↔
      t.isCancelled a = true ∨ ∃ u, op = .cancel u ∧ t.flag u = t.flag a) :
    Tracks (steps ++ [op]) t' := by
  have counted : made (steps ++ [op]) = made steps := by simp [made_concat, still]
  have same (a : Nat) : t'.flag a = t.flag a := by rw [flag, flag, flagOf_eq, length_eq]
  have noCopy (a b : Nat) : IsCopy (steps ++ [op]) a b → IsCopy steps a b := by
    rw [isCopy_concat_iff]
    rintro (earlier | ⟨rfl, -⟩)
    · exact earlier
    · cases still
  have requested (u : Nat) :
      Operation.cancel u ∈ steps ++ [op] ↔ Operation.cancel u ∈ steps ∨ op = .cancel u := by
    rw [List.mem_append, List.mem_singleton, eq_comm (a := op)]
  rw [← counted] at asked
  refine ⟨?_, ?_, ?_, ?_, ?_, ?_⟩
  · rw [flagOf_eq, h.count_eq, counted]
  · simpa only [counted, same, length_eq] using h.hasFlag
  · intro a b copy
    simpa only [counted, same] using h.copied a b (noCopy a b copy)
  · simp only [counted, same]
    intro a there b there' equal
    exact (h.joined a there b there' equal).concat op
  · intro u member
    rcases (requested u).mp member with earlier | last
    · exact counted ▸ h.asked u earlier
    · exact asked u last
  · intro a there
    rw [counted] at there
    simp only [isCancelled_iff a there, h.isCancelled_iff a there, requested, same, or_and_right,
      exists_or]

end Steps

theorem Tracks.concat {steps : List Operation} {t : Tokens} (h : Tracks steps t) (op : Operation)
    (fits : ∀ token ∈ op.token?, token < made steps) :
    Tracks (steps ++ [op]) (t.perform op).2 := by
  cases op with
  | create =>
    have flags : (t.flags ++ [false]).getD t.flags.length false = false := by simp
    refine h.add rfl rfl rfl ?_ (fun b copy => nomatch copy) (fun b there equal => ?_) ?_
    · show t.flags.length < (t.flags ++ [false]).length
      simp
    · exact absurd equal (Nat.ne_of_gt (h.hasFlag b there))
    · show (t.flags ++ [false]).getD t.flags.length false = true ↔ _
      rw [flags]
      refine iff_of_false Bool.false_ne_true ?_
      rintro ⟨u, member, equal⟩
      exact absurd equal (Nat.ne_of_lt (h.hasFlag u (h.asked u member)))
  | copy token =>
    have there := fits token rfl
    have copied : Family (steps ++ [.copy token]) (made steps) token :=
      .rel _ _ ((isCopy_concat_iff _ _ _ _).mpr (Or.inr ⟨rfl, rfl⟩))
    refine h.add rfl rfl (List.append_nil _).symm (h.hasFlag token there) (fun b copy => ?_)
      (fun b there' equal => ?_) (h.isCancelled_iff token there)
    · cases copy
      exact ⟨there, rfl⟩
    · exact copied.trans _ _ _ ((h.joined token there b there' equal).concat _)
  | cancel token =>
    have there := fits token rfl
    refine h.keep rfl rfl List.length_set (fun u last => ?_) fun a there' => ?_
    · cases last
      exact there
    · have own : (∃ u, Operation.cancel token = .cancel u ∧ t.flag u = t.flag a) ↔
          t.flag token = t.flag a := by simp
      have same : (t.cancel token).flag a = t.flag a := by simp [flag, cancel]
      rw [own]
      show (t.flags.set (t.flag token) true).getD ((t.cancel token).flag a) false = true ↔
        t.flags.getD (t.flag a) false = true ∨ _
      rw [same]
      have within := h.hasFlag a there'
      by_cases equal : t.flag token = t.flag a <;> simp [equal, within]
  | ask token =>
    exact h.keep rfl rfl rfl (fun u last => nomatch last) fun a _ => by simp [Tokens.perform]
  | check token stage =>
    exact h.keep rfl rfl rfl (fun u last => nomatch last) fun a _ => by simp [Tokens.perform]

theorem tracks_after {steps : List Operation} (possible : Possible steps) :
    Tracks steps (none.after steps) := by
  induction steps using List.reverseRecOn with
  | nil => exact tracks_none
  | append_singleton steps op ih =>
    rw [after_append]
    exact (ih possible.of_append).concat op possible.fits

section Answers

variable {steps before rest : List Operation} {op : Operation} {token : Nat}

theorem flag_after {t : Tokens} (there : token < t.flagOf.length) (rest : List Operation) :
    (t.after rest).flag token = t.flag token := by
  induction rest generalizing t with
  | nil => rfl
  | cons op rest ih =>
    have kept : token < (t.perform op).2.flagOf.length ∧
        (t.perform op).2.flag token = t.flag token := by
      cases op with
      | create => exact ⟨by simp [perform, create]; omega, flag_of_concat rfl there⟩
      | copy original => exact ⟨by simp [perform, copy]; omega, flag_of_concat rfl there⟩
      | cancel other => exact ⟨there, by simp [perform, flag, cancel]⟩
      | ask other => exact ⟨there, rfl⟩
      | check other stage => exact ⟨there, rfl⟩
    exact (ih kept.1).trans kept.2

theorem Tracks.family_iff {t : Tokens} {a b : Nat} (h : Tracks steps t) (there : a < made steps)
    (there' : b < made steps) : Family steps a b ↔ t.flag a = t.flag b := by
  refine ⟨fun family => ?_, h.joined a there b there'⟩
  clear there there'
  induction family with
  | rel a b copied => exact (h.copied a b copied).2
  | refl a => rfl
  | symm a b _ ih => exact ih.symm
  | trans a b c _ _ first second => exact first.trans second

/-- A request was made on the family of a token. -/
def Requested (steps before : List Operation) (token : Nat) : Prop :=
  ∃ u, .cancel u ∈ before ∧ Family steps u token

/-- A token shows a request when one was made on its family so far, families being those of the
whole sequence: what is copied later joins no two of them. -/
theorem isCancelled_after_iff (possible : Possible (before ++ rest)) (there : token < made before) :
    (none.after before).isCancelled token = true ↔ Requested (before ++ rest) before token := by
  have early := tracks_after possible.of_append
  have late := tracks_after possible
  rw [after_append] at late
  have kept {u : Nat} (there : u < made before) :
      ((none.after before).after rest).flag u = (none.after before).flag u :=
    flag_after (early.count_eq ▸ there) rest
  have still {u : Nat} (there : u < made before) : u < made (before ++ rest) :=
    Nat.lt_of_lt_of_le there (made_le_append before rest)
  -- the flags are those of the first operations, the families those of all: no flag changes hands
  rw [early.isCancelled_iff token there]
  refine exists_congr fun u => and_congr_right fun member => ?_
  have asked := early.asked u member
  rw [late.family_iff (still asked) (still there), kept asked, kept there]

end Answers

theorem message_stopped (stage : String) :
    (Failure.refuse (.stopped stage)).message = "cancelled before " ++ stage := by
  rfl

/-- Requests reach families of tokens and nothing else, in whichever order tokens are copied and
requests made, and they stay. -/
structure ReachesFamilies (steps : List Operation) : Prop where
  numbered : ∀ before op rest, steps = before ++ op :: rest → makes op = true →
    (none.answers steps)[before.length]? = some (.made (made before))
  asked : ∀ before token rest, steps = before ++ .ask token :: rest →
    ∃ yes, (none.answers steps)[before.length]? = some (.isCancelled yes) ∧
      (yes = true ↔ Requested steps before token)
  checked : ∀ before token stage rest, steps = before ++ .check token stage :: rest →
    ∃ result, (none.answers steps)[before.length]? = some (.checked result) ∧
      (Requested steps before token →
        ∃ f, result = .error f ∧ f.message = "cancelled before " ++ stage) ∧
      (¬ Requested steps before token → result = .ok ())
  apart : ∀ before op rest token, steps = before ++ op :: rest → token < made before →
    (none.after (before ++ [op])).isCancelled token ≠ (none.after before).isCancelled token →
      ∃ u, op = .cancel u ∧ Family steps u token
  permanent : ∀ before rest token, steps = before ++ rest → token < made before →
    (none.after before).isCancelled token = true → (none.after steps).isCancelled token = true

/-- In every sequence of operations that can be carried out, requests reach families. -/
theorem reachesFamilies_of_possible {steps : List Operation} (possible : Possible steps) :
    ReachesFamilies steps := by
  refine ⟨?_, ?_, ?_, ?_, ?_⟩
  · rintro before op rest rfl makes_
    have counted := (tracks_after possible.of_append).count_eq
    rw [getElem?_answers]
    cases op with
    | create => rw [← counted]; rfl
    | copy original => rw [← counted]; rfl
    | _ => cases makes_
  · rintro before token rest rfl
    exact ⟨_, getElem?_answers _ _ _ _, isCancelled_after_iff possible (possible.fits token rfl)⟩
  · rintro before token stage rest rfl
    refine ⟨_, getElem?_answers _ _ _ _, ?_⟩
    rw [← isCancelled_after_iff possible (possible.fits token rfl)]
    constructor
    · intro shown
      exact ⟨_, if_pos shown, message_stopped stage⟩
    · intro notShown
      exact if_neg notShown
  · rintro before op rest token rfl there changed
    have still : token < made (before ++ [op]) :=
      Nat.lt_of_lt_of_le there (made_le_append before [op])
    have now := isCancelled_after_iff possible there
    rw [List.append_cons] at possible now ⊢
    have next := isCancelled_after_iff possible still
    rw [ne_eq, Bool.eq_iff_iff, next, now] at changed
    by_contra other
    apply changed
    constructor
    · rintro ⟨u, member, family⟩
      refine ⟨u, (List.mem_append.mp member).resolve_right ?_, family⟩
      intro last
      exact other ⟨u, (List.mem_singleton.mp last).symm, family⟩
    · rintro ⟨u, member, family⟩
      exact ⟨u, List.mem_append_left _ member, family⟩
  · rintro before rest token rfl there shown
    obtain ⟨u, member, family⟩ := (isCancelled_after_iff possible there).mp shown
    have still : token < made (before ++ rest) :=
      Nat.lt_of_lt_of_le there (made_le_append before rest)
    rw [← List.append_nil (before ++ rest)] at possible
    have atEnd := isCancelled_after_iff possible still
    rw [List.append_nil] at atEnd
    exact atEnd.mpr ⟨u, List.mem_append_left _ member, family⟩

/-- Four tokens of two families: a copy made before the request and one made after it show it, and
the token of the other family does not. -/
theorem reachesFamilies_four :
    Possible [.create, .copy 0, .create, .cancel 1, .copy 0, .ask 3, .check 2 "scoring"] ∧
      ReachesFamilies
        [.create, .copy 0, .create, .cancel 1, .copy 0, .ask 3, .check 2 "scoring"] := by
  have possible : Possible
      [.create, .copy 0, .create, .cancel 1, .copy 0, .ask 3, .check 2 "scoring"] := by
    decide
  exact ⟨possible, reachesFamilies_of_possible possible⟩

end ToolTrial.Tokens
