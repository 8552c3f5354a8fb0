import Mathlib.Data.List.Nodup
import ToolTrial.Json.Reader

/-!
What every document that is read has in common: its integers have 64 bits, its floats are finite,
and no object has a member twice.  One token keeps the containers that are open this way, and so
does a whole text.
-/

set_option autoImplicit false
set_option relaxedAutoImplicit false

namespace ToolTrial.Json

/-- A document whose numbers fit their formats and whose objects have each member once. -/
inductive WellFormed : Json → Prop
  | null : WellFormed .null
  | bool (b : Bool) : WellFormed (.bool b)
  | integer {n : Int} (least : Number.leastInteger ≤ n) (greatest : n ≤ Number.greatestInteger) :
    WellFormed (.integer n)
  | float {x : Float} (finite : x.isFinite = true) : WellFormed (.float x)
  | text (s : String) : WellFormed (.text s)
  | array {items : List Json} (each : ∀ j ∈ items, WellFormed j) : WellFormed (.array items)
  | object {members : List (String × Json)} (distinct : (members.map Prod.fst).Nodup)
    (each : ∀ m ∈ members, WellFormed m.2) : WellFormed (.object members)

section Members

variable {key : String} {value : Json} {members : List (String × Json)}

theorem keys_setMember : (setMember key value members).map Prod.fst =
    if key ∈ members.map Prod.fst then members.map Prod.fst
    else members.map Prod.fst ++ [key] := by
  induction members with
  | nil => rfl
  | cons m members ih =>
    obtain ⟨k, v⟩ := m
    by_cases here : k = key
    · simp [setMember, here]
    · simp only [setMember, if_neg here, List.map_cons, ih, List.mem_cons, Ne.symm here, false_or]
      split <;> simp

theorem mem_setMember {m : String × Json} (inside : m ∈ setMember key value members) :
    m = (key, value) ∨ m ∈ members := by
  induction members with
  | nil => exact Or.inl (by simpa [setMember] using inside)
  | cons m' members ih =>
    obtain ⟨k, v⟩ := m'
    rw [setMember] at inside
    split at inside
    · rename_i here
      rcases List.mem_cons.mp inside with rfl | later
      · exact Or.inl (by rw [here])
      · exact Or.inr (List.mem_cons_of_mem _ later)
    · rcases List.mem_cons.mp inside with rfl | later
      · exact Or.inr List.mem_cons_self
      · exact (ih later).imp_right (List.mem_cons_of_mem _)

theorem wellFormed_setMember (object : WellFormed (.object members)) (good : WellFormed value) :
    WellFormed (.object (setMember key value members)) := by
  obtain ⟨distinct, each⟩ : (members.map Prod.fst).Nodup ∧ ∀ m ∈ members, WellFormed m.2 := by
    cases object with
    | object distinct each => exact ⟨distinct, each⟩
  refine .object ?_ ?_
  · rw [keys_setMember]
    split
    · exact distinct
    · rename_i new
      exact List.nodup_append.mpr ⟨distinct, List.nodup_singleton key, fun k old k' last same =>
        new (List.mem_singleton.mp last ▸ same ▸ old)⟩
  · intro m inside
    rcases mem_setMember inside with rfl | old
    · exact good
    · exact each m old

end Members

section Tokens

def Token.WellFormed : Token → Prop
  | .scalar j => j.WellFormed
  | _ => True

theorem wellFormed_of_value? {l : Number.Literal} {value : Number.Value}
    (valued : l.value? = some value) :
    match value with
    | .integer n => WellFormed (.integer n)
    | .float x => WellFormed (.float x) := by
  unfold Number.Literal.value? at valued
  extract_lets n minusZero at valued
  split at valued
  · rename_i exact
    obtain rfl := Option.some.inj valued
    simp only [Bool.and_eq_true, decide_eq_true_eq] at exact
    exact .integer exact.1.2 exact.2
  · obtain ⟨x, read, rfl⟩ := Option.map_eq_some_iff.mp valued
    exact .float (Option.filter_eq_some_iff.mp read).2

theorem wellFormed_of_word? {cs : List Char} {j : Json} (spelled : word? cs = some j) :
    j.WellFormed := by
  rw [word?] at spelled
  split at spelled
  · exact Option.some.inj spelled ▸ .null
  split at spelled
  · exact Option.some.inj spelled ▸ .bool true
  split at spelled
  · exact Option.some.inj spelled ▸ .bool false
  split at spelled
  · rename_i found
    obtain ⟨l, -, valued⟩ := Option.bind_eq_some_iff.mp found
    exact Option.some.inj spelled ▸ wellFormed_of_value? valued
  · rename_i found
    obtain ⟨l, -, valued⟩ := Option.bind_eq_some_iff.mp found
    exact Option.some.inj spelled ▸ wellFormed_of_value? valued
  · simp at spelled

theorem wellFormed_of_token? {l : Lexeme} {t : Token} (read : l.token? word? = some t)
    (mark : ∀ t, l = .mark t → t.WellFormed) : t.WellFormed := by
  cases l with
  | mark t' => exact Option.some.inj read ▸ mark t' rfl
  | text s => exact Option.some.inj read ▸ .text s
  | word cs =>
    obtain ⟨j, spelled, rfl⟩ := Option.map_eq_some_iff.mp read
    exact wellFormed_of_word? spelled

theorem wellFormed_of_mark? {c : Char} {t : Token} (mark : mark? c = some t) : t.WellFormed := by
  unfold mark? at mark
  repeat' split at mark
  all_goals simp only [Option.some.injEq, reduceCtorEq] at mark
  all_goals exact mark ▸ trivial

theorem wellFormed_of_lexeme? {c : Char} {cs rest : List Char} {l : Lexeme}
    (cut : lexeme? c cs = some (l, rest)) : ∀ t, l = .mark t → t.WellFormed := by
  rintro t rfl
  rw [lexeme?] at cut
  split at cut
  · rename_i mark
    obtain ⟨same, -⟩ := Prod.mk.inj (Option.some.inj cut)
    exact Lexeme.mark.inj same ▸ wellFormed_of_mark? mark
  · split at cut
    · obtain ⟨⟨chars, after⟩, -, same⟩ := Option.map_eq_some_iff.mp cut
      cases same
    · cases cut

theorem wellFormed_of_lexemes? {cs : List Char} {lexemes : List Lexeme}
    (cut : lexemes? cs = some lexemes) : ∀ l ∈ lexemes, ∀ t, l = .mark t → t.WellFormed := by
  fun_induction lexemes? cs generalizing lexemes with
  | case1 =>
    obtain rfl := Option.some.inj cut
    simp
  | case2 c cs space ih => exact ih cut
  | case3 => simp at cut
  | case4 c cs space l rest front ih =>
    obtain ⟨others, later, rfl⟩ := Option.map_eq_some_iff.mp cut
    rw [List.forall_mem_cons]
    exact ⟨wellFormed_of_lexeme? front, ih later⟩

theorem wellFormed_of_tokens? {cs : List Char} {tokens : List Token}
    (cut : tokens? cs = some tokens) : ∀ t ∈ tokens, t.WellFormed := by
  obtain ⟨lexemes, pieces, read⟩ := Option.bind_eq_some_iff.mp cut
  have marks := wellFormed_of_lexemes? pieces
  clear pieces cut
  induction lexemes generalizing tokens with
  | nil =>
    obtain rfl := Option.some.inj read
    simp
  | cons l lexemes ih =>
    rw [List.forall_mem_cons] at marks
    rw [List.mapM_cons] at read
    obtain ⟨t, first, read⟩ := Option.bind_eq_some_iff.mp read
    obtain ⟨others, later, same⟩ := Option.bind_eq_some_iff.mp read
    obtain rfl := Option.some.inj same
    exact List.forall_mem_cons.mpr ⟨wellFormed_of_token? first marks.1, ih later marks.2⟩

end Tokens

/-- An open container holds documents that are well formed, and no member twice. -/
def Frame.WellFormed : Frame → Prop
  | .array items => ∀ j ∈ items, j.WellFormed
  | .object members _ => Json.WellFormed (.object members)

def Expected.WellFormed : Expected → Prop
  | .key members => Json.WellFormed (.object members)
  | .colon members _ => Json.WellFormed (.object members)
  | .next j => j.WellFormed
  | _ => True

namespace Machine

structure WellFormed (m : Machine) : Prop where
  expected : m.expected.WellFormed
  stack : ∀ f ∈ m.stack, f.WellFormed

variable {limit : Nat} {stack : List Frame} {m m' : Machine} {t : Token}

theorem wellFormed_atValue (good : t.WellFormed) (open_ : ∀ f ∈ stack, f.WellFormed)
    (next : atValue limit stack t = some m) : m.WellFormed := by
  cases t with
  | scalar j =>
    obtain rfl := Option.some.inj next
    exact ⟨good, open_⟩
  | openArray =>
    obtain ⟨-, same⟩ := Option.ite_none_right_eq_some.mp next
    obtain rfl := Option.some.inj same
    exact ⟨trivial, open_⟩
  | openObject =>
    obtain ⟨-, same⟩ := Option.ite_none_right_eq_some.mp next
    obtain rfl := Option.some.inj same
    exact ⟨trivial, open_⟩
  | _ => simp [atValue] at next

theorem wellFormed_afterValue {value : Json} (good : value.WellFormed)
    (open_ : ∀ f ∈ stack, f.WellFormed) (next : afterValue value stack t = some m) :
    m.WellFormed := by
  cases stack with
  | nil => cases t <;> simp [afterValue] at next
  | cons f stack =>
    obtain ⟨innermost, others⟩ := List.forall_mem_cons.mp open_
    cases f with
    | array items =>
      have items : ∀ j ∈ value :: items, j.WellFormed :=
        List.forall_mem_cons.mpr ⟨good, innermost⟩
      cases t with
      | comma =>
        obtain rfl := Option.some.inj next
        exact ⟨trivial, List.forall_mem_cons.mpr ⟨items, others⟩⟩
      | closeArray =>
        obtain rfl := Option.some.inj next
        exact ⟨.array fun j inside => items j (List.mem_reverse.mp inside), others⟩
      | _ => simp [afterValue] at next
    | object members key =>
      have members : Json.WellFormed (.object (setMember key value members)) :=
        wellFormed_setMember innermost good
      cases t with
      | comma =>
        obtain rfl := Option.some.inj next
        exact ⟨members, others⟩
      | closeObject =>
        obtain rfl := Option.some.inj next
        exact ⟨members, others⟩
      | _ => simp [afterValue] at next

theorem wellFormed_step (good : m.WellFormed) (token : t.WellFormed)
    (next : m.step limit t = some m') : m'.WellFormed := by
  obtain ⟨held, open_⟩ := good
  unfold step at next
  -- one case for each thing that the machine expects, with the tokens that it takes there
  split at next
  · exact wellFormed_atValue token open_ next
  · obtain rfl := Option.some.inj next
    exact ⟨.array (by simp), open_⟩
  · have emptied : (Frame.array []).WellFormed := by simp [Frame.WellFormed]
    exact wellFormed_atValue token (List.forall_mem_cons.mpr ⟨emptied, open_⟩) next
  · obtain rfl := Option.some.inj next
    exact ⟨.object (by simp) (by simp), open_⟩
  · obtain rfl := Option.some.inj next
    exact ⟨.object (by simp) (by simp), open_⟩
  · rename_i here
    rw [here] at held
    obtain rfl := Option.some.inj next
    exact ⟨held, open_⟩
  · rename_i here
    rw [here] at held
    obtain rfl := Option.some.inj next
    exact ⟨trivial, List.forall_mem_cons.mpr ⟨held, open_⟩⟩
  · rename_i here
    rw [here] at held
    exact wellFormed_afterValue held open_ next
  · simp at next

theorem wellFormed_foldlM {tokens : List Token} (good : m.WellFormed)
    (each : ∀ t ∈ tokens, t.WellFormed) (last : tokens.foldlM (step limit) m = some m') :
    m'.WellFormed := by
  induction tokens generalizing m with
  | nil =>
    obtain rfl := Option.some.inj last
    exact good
  | cons t tokens ih =>
    rw [List.forall_mem_cons] at each
    rw [List.foldlM_cons] at last
    obtain ⟨m₁, next, rest⟩ := Option.bind_eq_some_iff.mp last
    exact ih (wellFormed_step good each.1 next) each.2 rest

end Machine

/-- Every document that a text spells is well formed. -/
theorem wellFormed_of_read? {limit : Nat} {s : String} {j : Json}
    (spelled : read? limit s = some j) :
    j.WellFormed := by
  obtain ⟨tokens, cut, spelled⟩ := Option.bind_eq_some_iff.mp spelled
  obtain ⟨last, ran, spelled⟩ := Option.bind_eq_some_iff.mp spelled
  have start : Machine.start.WellFormed := ⟨trivial, by simp [Machine.start]⟩
  have good := Machine.wellFormed_foldlM start (wellFormed_of_tokens? cut) ran
  obtain ⟨expected, stack⟩ := last
  cases expected with
  | next value =>
    cases stack with
    | nil =>
      obtain rfl := Option.some.inj spelled
      exact good.expected
    | cons f stack => simp [Machine.document?] at spelled
  | _ => simp [Machine.document?] at spelled

end ToolTrial.Json
