import Mathlib.Data.List.Nodup
import ToolTrial.Json.Decode
import ToolTrial.Proofs.Codec

/-!
Which documents decoders read.  A decoder reads a document when it gives a value for it.  A record
is read when the members that it declares are good and none of them is given twice; the values that
it holds are then those of the document.
-/

set_option autoImplicit false
set_option relaxedAutoImplicit false

namespace ToolTrial.Json

def Decoder.Reads {α : Type} (decode : Decoder α) (j : Json) : Prop :=
  ∃ a, decode j = .ok a

def IsIntegerIn (least greatest : Int) (j : Json) : Prop :=
  ∃ n, j = .integer n ∧ least ≤ n ∧ n ≤ greatest

namespace Decoder

theorem reads_text_iff (j : Json) : text.Reads j ↔ ∃ s, j = .text s := by
  cases j <;> simp [Reads, text]

theorem reads_boolean_iff (j : Json) : boolean.Reads j ↔ ∃ b, j = .bool b := by
  cases j <;> simp [Reads, boolean]

theorem reads_integerIn_iff (least greatest : Int) (name : String) (j : Json) :
    (integerIn least greatest name).Reads j ↔ j.IsIntegerIn least greatest := by
  cases j with
  | integer n =>
    by_cases within : least ≤ n ∧ n ≤ greatest
    · simp [Reads, IsIntegerIn, integerIn, within]
    · simp [Reads, IsIntegerIn, integerIn, within]
  | _ => simp [Reads, IsIntegerIn, integerIn]

theorem reads_natural_iff (bound : Nat) (name : String) (j : Json) :
    (natural bound name).Reads j ↔ j.IsIntegerIn 0 (bound - 1) := by
  rw [← reads_integerIn_iff 0 (bound - 1) name]
  simp only [Reads, natural]
  cases integerIn 0 (bound - 1) name j <;> simp [Except.map]

theorem reads_optional_iff {α : Type} (decode : Decoder α) (j : Json) :
    (optional decode).Reads j ↔ j = .null ∨ decode.Reads j := by
  have past (value : j ≠ .null) : (optional decode).Reads j ↔ decode.Reads j := by
    have read : optional decode j = (decode j).map some := by
      cases j with
      | null => exact absurd rfl value
      | _ => rfl
    simp only [Reads, read]
    cases decode j <;> simp [Except.map]
  by_cases value : j = .null
  · subst value
    exact ⟨fun _ => Or.inl rfl, fun _ => ⟨none, rfl⟩⟩
  · rw [past value]
    simp [value]

theorem reads_list_iff {α : Type} (decode : Decoder α) (j : Json) :
    (list decode).Reads j ↔ ∃ items, j = .array items ∧ ∀ i ∈ items, decode.Reads i := by
  cases j with
  | array items =>
    simp only [Reads, list, mapM_eq_ok_iff, array.injEq, exists_eq_left']
    exact exists_forall₂_iff
  | _ => simp [Reads, list]

end Decoder

section Members

variable {members : List (String × Json)} {key : String} {j : Json}

theorem mem_of_member? (found : member? key members = some j) : (key, j) ∈ members := by
  induction members with
  | nil => simp [member?] at found
  | cons m members ih =>
    obtain ⟨k, v⟩ := m
    rw [member?] at found
    split at found
    · rename_i here
      obtain rfl := Option.some.inj found
      simp [here]
    · exact List.mem_cons_of_mem _ (ih found)

theorem member?_eq_some_iff (distinct : (members.map Prod.fst).Nodup) :
    member? key members = some j ↔ (key, j) ∈ members := by
  refine ⟨mem_of_member?, ?_⟩
  intro inside
  induction members with
  | nil => simp at inside
  | cons m members ih =>
    obtain ⟨k, v⟩ := m
    rw [List.map_cons, List.nodup_cons] at distinct
    rw [member?]
    rcases List.mem_cons.mp inside with here | later
    · obtain ⟨rfl, rfl⟩ := Prod.mk.inj here
      simp
    · have apart : k ≠ key := by
        rintro rfl
        exact distinct.1 (List.mem_map.mpr ⟨_, later, rfl⟩)
      rw [if_neg apart]
      exact ih distinct.2 later

theorem isSome_member?_iff : (member? key members).isSome = true ↔ key ∈ members.map Prod.fst := by
  induction members with
  | nil => simp [member?]
  | cons m members ih =>
    obtain ⟨k, v⟩ := m
    rw [member?, List.map_cons, List.mem_cons]
    by_cases here : k = key
    · simp [here]
    · simp [here, Ne.symm here, ih]

end Members

namespace Member

def names (m : Member) : List String := m.name :: m.otherNames

theorem isCalled_iff (m : Member) (key : String) : m.isCalled key = true ↔ key ∈ m.names := by
  simp only [isCalled, names, Bool.or_eq_true, beq_iff_eq, List.contains_iff_mem, List.mem_cons,
    @eq_comm _ key]

/-- The members that an object gives are fit for this one: it is given at most once, and well. -/
def Fits (m : Member) (given : List (String × Json)) : Prop :=
  given.countP (fun e => m.isCalled e.1) ≤ 1 ∧
    ∀ e ∈ given, m.isCalled e.1 = true → m.check e.2 = .ok ()

theorem check_of_eq_ok_iff {α : Type} (name : String) (decode : Decoder α) (j : Json) :
    (of name decode).check j = .ok () ↔ decode.Reads j := by
  simp only [of, Decoder.Reads]
  cases decode j <;> simp [Except.map]

section Fits

variable {α : Type} {given : List (String × Json)} {name other : String} {decode : Decoder α}

private theorem countP_fst (distinct : (given.map Prod.fst).Nodup) (key : String) :
    given.countP (fun e => key == e.1) = if (member? key given).isSome then 1 else 0 := by
  have counted : given.countP (fun e => key == e.1) = (given.map Prod.fst).count key := by
    rw [List.count, List.countP_map]
    apply List.countP_congr
    intro e _
    rw [Function.comp_apply, beq_iff_eq, beq_iff_eq]
    exact eq_comm
  rw [counted, distinct.count]
  simp only [isSome_member?_iff]

theorem fits_of_iff (distinct : (given.map Prod.fst).Nodup) :
    (of name decode).Fits given ↔ ∀ j ∈ member? name given, decode.Reads j := by
  have called (key : String) : (of name decode).isCalled key = (name == key) := by
    simp [of, isCalled]
  simp only [Fits, called, check_of_eq_ok_iff, beq_iff_eq, Option.mem_def,
    member?_eq_some_iff distinct]
  constructor
  · rintro ⟨-, each⟩ j inside
    exact each (name, j) inside rfl
  · intro each
    refine ⟨?_, ?_⟩
    · rw [countP_fst distinct]
      split <;> omega
    · rintro ⟨key, j⟩ inside rfl
      exact each j inside

theorem fits_orNamed_iff (distinct : (given.map Prod.fst).Nodup) (apart : name ≠ other) :
    ((of name decode).orNamed other).Fits given ↔
      ¬((member? name given).isSome ∧ (member? other given).isSome) ∧
        (∀ j ∈ member? name given, decode.Reads j) ∧
          ∀ j ∈ member? other given, decode.Reads j := by
  have called (key : String) :
      ((of name decode).orNamed other).isCalled key = (name == key || other == key) := by
    rw [Bool.eq_iff_iff, isCalled_iff]
    simp [of, orNamed, names, @eq_comm _ key]
  have counted : given.countP (fun e => name == e.1 || other == e.1) =
      given.countP (fun e => name == e.1) + given.countP fun e => other == e.1 := by
    clear called distinct
    induction given with
    | nil => rfl
    | cons e given ih =>
      simp only [List.countP_cons, ih]
      by_cases first : name = e.1
      · have second : other ≠ e.1 := fun same => apart (first.trans same.symm)
        simp [first, second]
        omega
      · simp [first]
        omega
  have once : given.countP (fun e => name == e.1 || other == e.1) ≤ 1 ↔
      ¬((member? name given).isSome ∧ (member? other given).isSome) := by
    rw [counted, countP_fst distinct, countP_fst distinct]
    split <;> split <;> simp_all
  have checked (j : Json) : ((of name decode).orNamed other).check j = .ok () ↔ decode.Reads j :=
    check_of_eq_ok_iff name decode j
  simp only [Fits, called, checked, once, Option.mem_def, member?_eq_some_iff distinct]
  refine and_congr_right fun _ => ?_
  constructor
  · intro each
    refine ⟨fun j inside => each (name, j) inside (by simp), fun j inside => ?_⟩
    exact each (other, j) inside (by simp)
  · rintro ⟨first, second⟩ ⟨key, j⟩ inside here
    rcases (Bool.or_eq_true _ _).mp here with here | here
    · obtain rfl := eq_of_beq here
      exact first j inside
    · obtain rfl := eq_of_beq here
      exact second j inside

end Fits
end Member

namespace Record

variable {members : List Member} {given values : List (String × Json)}

/-- The values of the declared members among the given ones, under their own names. -/
def named (members : List Member) (given : List (String × Json)) : List (String × Json) :=
  given.filterMap fun e => (members.find? (·.isCalled e.1)).map fun m => (m.name, e.2)

theorem scan_eq_ok_iff (seen : List String) : scan members seen given = .ok values ↔
    (∀ e ∈ given, ∀ m ∈ members.find? (·.isCalled e.1), m.check e.2 = .ok ()) ∧
      ((named members given).map Prod.fst).Nodup ∧
      (∀ name ∈ (named members given).map Prod.fst, name ∉ seen) ∧
      values = named members given := by
  -- what has been seen grows with each member that is read, so it is not fixed in the induction
  induction given generalizing seen values with
  | nil => simp [scan, named, eq_comm]
  | cons e given ih =>
    obtain ⟨key, value⟩ := e
    rw [scan, List.forall_mem_cons]
    cases found : members.find? (·.isCalled key) with
    | none =>
      have unknown : named members ((key, value) :: given) = named members given := by
        simp [named, found]
      rw [unknown]
      simpa using ih seen
    | some m =>
      have known : named members ((key, value) :: given) =
          (m.name, value) :: named members given := by
        simp [named, found]
      rw [known, List.map_cons, List.nodup_cons, List.forall_mem_cons]
      by_cases twice : m.name ∈ seen
      · simp [twice]
      · simp only [List.contains_iff_mem, if_neg twice, bind_eq_ok_iff, pure_eq_ok_iff, ih]
        constructor
        · rintro ⟨⟨⟩, good, rest, ⟨others, distinct, fresh, rfl⟩, rfl⟩
          refine ⟨⟨by simpa using good, others⟩, ⟨?_, distinct⟩, ⟨twice, ?_⟩, rfl⟩
          · intro again
            exact fresh _ again List.mem_cons_self
          · intro name member inSeen
            exact fresh name member (List.mem_cons_of_mem _ inSeen)
        · rintro ⟨⟨good, others⟩, ⟨once, distinct⟩, ⟨-, fresh⟩, rfl⟩
          refine ⟨(), by simpa using good, _, ⟨others, distinct, ?_, rfl⟩, rfl⟩
          intro name member inSeen
          rcases List.mem_cons.mp inSeen with rfl | inSeen
          · exact once member
          · exact fresh name member inSeen

def Apart (members : List Member) : Prop := (members.flatMap Member.names).Nodup

instance (members : List Member) : Decidable (Apart members) :=
  inferInstanceAs (Decidable (List.Nodup _))

theorem find?_eq_some_iff (apart : Apart members) (key : String) (m : Member) :
    members.find? (·.isCalled key) = some m ↔ m ∈ members ∧ key ∈ m.names := by
  constructor
  · intro found
    obtain ⟨called, -⟩ := List.find?_eq_some_iff_append.mp found
    exact ⟨List.mem_of_find?_eq_some found, (m.isCalled_iff key).mp called⟩
  · rintro ⟨inside, called⟩
    induction members with
    | nil => simp at inside
    | cons m' members ih =>
      rw [Apart, List.flatMap_cons, List.nodup_append] at apart
      obtain ⟨-, others, disjoint⟩ := apart
      rw [List.find?_cons]
      rcases List.mem_cons.mp inside with rfl | later
      · rw [(m.isCalled_iff key).mpr called]
      · have elsewhere : m'.isCalled key = false := by
          rw [← Bool.not_eq_true, m'.isCalled_iff]
          intro here
          exact disjoint key here key (List.mem_flatMap.mpr ⟨m, later, called⟩) rfl
        rw [elsewhere]
        exact ih others later

theorem eq_of_name_eq (apart : Apart members) {m m' : Member} (declared : m ∈ members)
    (declared' : m' ∈ members) (same : m'.name = m.name) : m' = m := by
  have own : m.name ∈ m.names := List.mem_cons_self
  have own' : m.name ∈ m'.names := same ▸ List.mem_cons_self
  have first := (find?_eq_some_iff apart m.name m).mpr ⟨declared, own⟩
  have second := (find?_eq_some_iff apart m.name m').mpr ⟨declared', own'⟩
  exact Option.some.inj (second.symm.trans first)

/-- What an object gives for a member, under whichever of its names. -/
def valueOf (m : Member) (given : List (String × Json)) : Option Json :=
  (given.find? fun e => m.isCalled e.1).map Prod.snd

theorem member?_named (apart : Apart members) {m : Member} (declared : m ∈ members) :
    member? m.name (named members given) = valueOf m given := by
  induction given with
  | nil => rfl
  | cons e given ih =>
    obtain ⟨key, value⟩ := e
    rw [valueOf, List.find?_cons]
    by_cases called : m.isCalled key = true
    · have found := (find?_eq_some_iff apart key m).mpr ⟨declared, (m.isCalled_iff key).mp called⟩
      simp [named, found, called, member?]
    · rw [Bool.not_eq_true] at called
      rw [called]
      cases found : members.find? (·.isCalled key) with
      | none => simpa [named, found, valueOf] using ih
      | some m' =>
        obtain ⟨declared', called'⟩ := (find?_eq_some_iff apart key m').mp found
        have other : m'.name ≠ m.name := by
          intro same
          obtain rfl := eq_of_name_eq apart declared declared' same
          simp [(m'.isCalled_iff key).mpr called'] at called
        simpa [named, found, member?, other, valueOf] using ih

private theorem count_named (apart : Apart members) {m : Member} (declared : m ∈ members) :
    ((named members given).map Prod.fst).count m.name =
      given.countP fun e => m.isCalled e.1 := by
  rw [List.count, List.countP_map, named, List.countP_filterMap]
  apply List.countP_congr
  intro e _
  cases found : members.find? (·.isCalled e.1) with
  | none =>
    have unknown : m.isCalled e.1 = false := by
      simpa using List.find?_eq_none.mp found m declared
    simp [unknown]
  | some m' =>
    obtain ⟨declared', called'⟩ := (find?_eq_some_iff apart e.1 m').mp found
    have same : m'.name = m.name ↔ m.isCalled e.1 = true := by
      constructor
      · intro same
        obtain rfl := eq_of_name_eq apart declared declared' same
        exact (m'.isCalled_iff e.1).mpr called'
      · intro called
        have own := (find?_eq_some_iff apart e.1 m).mpr
          ⟨declared, (m.isCalled_iff e.1).mp called⟩
        rw [Option.some.inj (found.symm.trans own)]
    simpa using same

private theorem exists_read_iff_scan (name : String) :
    (∃ r, read name members (.object given) = .ok r) ↔
      ∃ values, scan members [] given = .ok values := by
  simp only [read, ofObject, bind_eq_ok_iff, pure_eq_ok_iff]
  constructor
  · rintro ⟨r, values, scanned, -⟩
    exact ⟨values, scanned⟩
  · rintro ⟨values, scanned⟩
    exact ⟨_, values, scanned, rfl⟩

/-- An object stands for a record when each member that it gives is good and none is given twice. -/
theorem exists_read_object_iff (name : String) (apart : Apart members) :
    (∃ r, read name members (.object given) = .ok r) ↔
      ∀ m ∈ members, m.Fits given := by
  rw [exists_read_iff_scan]
  simp only [scan_eq_ok_iff, List.not_mem_nil, not_false_eq_true, implies_true, true_and,
    exists_and_left, exists_eq, and_true]
  constructor
  · rintro ⟨good, distinct⟩ m declared
    refine ⟨?_, ?_⟩
    · rw [← count_named apart declared]
      exact List.nodup_iff_count_le_one.mp distinct m.name
    · intro e member called
      exact good e member m
        ((find?_eq_some_iff apart e.1 m).mpr ⟨declared, (m.isCalled_iff e.1).mp called⟩)
  · intro each
    refine ⟨?_, ?_⟩
    · intro e member m found
      obtain ⟨declared, called⟩ := (find?_eq_some_iff apart e.1 m).mp found
      exact (each m declared).2 e member ((m.isCalled_iff e.1).mpr called)
    · rw [List.nodup_iff_count_le_one]
      intro key
      by_cases declared : ∃ m ∈ members, m.name = key
      · obtain ⟨m, declared, rfl⟩ := declared
        rw [count_named apart declared]
        exact (each m declared).1
      · have absent : key ∉ (named members given).map Prod.fst := by
          intro inside
          obtain ⟨e, member, rfl⟩ := List.mem_map.mp inside
          obtain ⟨e', -, found⟩ := List.mem_filterMap.mp member
          obtain ⟨m, found, same⟩ := Option.map_eq_some_iff.mp found
          exact declared ⟨m, List.mem_of_find?_eq_some found, by rw [← same]⟩
        rw [List.count_eq_zero_of_not_mem absent]
        exact Nat.zero_le 1

/-- The values of a record are good for the members that it declares. -/
def Sound (members : List Member) (r : Record) : Prop :=
  ∀ m ∈ members, ∀ j ∈ member? m.name r.values, m.check j = .ok ()

theorem sound_of_read (apart : Apart members) {name : String} {r : Record}
    (opened : read name members (.object given) = .ok r) :
    r.Sound members ∧ ∀ m ∈ members, member? m.name r.values = valueOf m given := by
  simp only [read, ofObject, bind_eq_ok_iff, pure_eq_ok_iff] at opened
  obtain ⟨values, scanned, rfl⟩ := opened
  obtain ⟨good, -, -, rfl⟩ := (scan_eq_ok_iff []).mp scanned
  have valued (m : Member) (declared : m ∈ members) :
      member? m.name (named members given) = valueOf m given := member?_named apart declared
  refine ⟨?_, valued⟩
  intro m declared j found
  dsimp only at found
  rw [valued m declared] at found
  obtain ⟨e, here, rfl⟩ := Option.map_eq_some_iff.mp found
  obtain ⟨called, -⟩ := List.find?_eq_some_iff_append.mp here
  exact good e (List.mem_of_find?_eq_some here) m
    ((find?_eq_some_iff apart e.1 m).mpr ⟨declared, (m.isCalled_iff e.1).mp called⟩)

theorem valueOf_of_single {m : Member} (single : m.otherNames = []) :
    valueOf m given = member? m.name given := by
  have called (key : String) : m.isCalled key = (m.name == key) := by
    simp [Member.isCalled, single]
  induction given with
  | nil => rfl
  | cons e given ih =>
    obtain ⟨key, j⟩ := e
    rw [valueOf, List.find?_cons, called, member?]
    by_cases here : m.name = key
    · simp [here]
    · rw [beq_false_of_ne here, if_neg (Ne.symm here)]
      exact ih

section Fields

variable {α : Type} {r : Record} {m : Member} {decode : Decoder α}

theorem exists_required_iff (sound : r.Sound members) {name : String}
    (declared : .of name decode ∈ members) :
    (∃ a, r.required name decode = .ok a) ↔ (member? name r.values).isSome = true := by
  rw [required]
  cases found : member? name r.values with
  | none => simp
  | some j =>
    have good := (Member.check_of_eq_ok_iff name decode j).mp (sound _ declared j found)
    simpa [Decoder.Reads] using good

theorem exists_orDefault_of_check (sound : r.Sound members) (declared : m ∈ members)
    (checks : m.check = (Member.of m.name decode).check) (default : α) :
    ∃ a, r.orDefault m.name default decode = .ok a := by
  rw [orDefault]
  cases found : member? m.name r.values with
  | none => exact ⟨default, rfl⟩
  | some j =>
    have good := sound m declared j found
    rw [checks] at good
    exact (Member.check_of_eq_ok_iff m.name decode j).mp good

theorem exists_orDefault (sound : r.Sound members) {name : String}
    (declared : .of name decode ∈ members) (default : α) :
    ∃ a, r.orDefault name default decode = .ok a :=
  exists_orDefault_of_check sound declared rfl default

end Fields

theorem exists_bind_eq_ok_iff {α β : Type} (x : Except DecodeError α)
    (f : α → Except DecodeError β) :
    (∃ b, (x >>= f) = .ok b) ↔ ∃ a, x = .ok a ∧ ∃ b, f a = .ok b := by
  simp only [bind_eq_ok_iff]
  exact ⟨fun ⟨b, a, first, rest⟩ => ⟨a, first, b, rest⟩,
    fun ⟨a, first, b, rest⟩ => ⟨b, a, first, rest⟩⟩

theorem exists_pure_eq_ok {α : Type} (a : α) :
    ∃ b, (pure a : Except DecodeError α) = .ok b :=
  ⟨a, rfl⟩

/-- A decoder that reads a record and then its fields reads the objects whose members fit and that
have the members without which a field has no value. -/
theorem reads_object_iff {α : Type} {name : String} {fields : Record → Except DecodeError α}
    (apart : Apart members) (needed : List String)
    (declared : ∀ key ∈ needed, ∃ m ∈ members, m.name = key ∧ m.otherNames = [])
    (exists_fields : ∀ r : Record, r.Sound members →
      ((∃ a, fields r = .ok a) ↔ ∀ key ∈ needed, (member? key r.values).isSome = true)) :
    Decoder.Reads (fun j => read name members j >>= fields) (.object given) ↔
      (∀ m ∈ members, m.Fits given) ∧ ∀ key ∈ needed, (member? key given).isSome = true := by
  rw [Decoder.Reads, exists_bind_eq_ok_iff, ← exists_read_object_iff name apart]
  have has {r : Record} (opened : read name members (.object given) = .ok r) :
      (∃ a, fields r = .ok a) ↔ ∀ key ∈ needed, (member? key given).isSome = true := by
    obtain ⟨sound, valued⟩ := sound_of_read apart opened
    rw [exists_fields r sound]
    refine forall₂_congr fun key inside => ?_
    obtain ⟨m, known, rfl, single⟩ := declared key inside
    rw [valued m known, valueOf_of_single single]
  constructor
  · rintro ⟨r, opened, fields⟩
    exact ⟨⟨r, opened⟩, (has opened).mp fields⟩
  · rintro ⟨⟨r, opened⟩, given⟩
    exact ⟨r, opened, (has opened).mpr given⟩

end Record
end ToolTrial.Json
