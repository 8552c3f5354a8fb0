import ToolTrial.Json.Decode
import ToolTrial.Proofs.Attempt
import ToolTrial.Schema.Documents

/-!
Decoders on what encoders write.  A list is read item by item and an optional value past its null;
the members of an object are all taken when each is known, good, and given once.  A schema accepts
an object when nothing that it needs is lacking and each member keeps to its own schema.
-/

set_option autoImplicit false
set_option relaxedAutoImplicit false

namespace ToolTrial

namespace Json

namespace Decoder

@[simp]
theorem text_text (s : String) : text (.text s) = .ok s := rfl

@[simp]
theorem boolean_bool (b : Bool) : boolean (.bool b) = .ok b := rfl

theorem integerIn_integer {least greatest n : Int} (name : String) (low : least ≤ n)
    (high : n ≤ greatest) : integerIn least greatest name (.integer n) = .ok n :=
  if_pos ⟨low, high⟩

theorem natural_ofNat {bound n : Nat} (name : String) (small : n < bound) :
    natural bound name (ofNat n) = .ok n := by
  have low : (0 : Int) ≤ n := Int.natCast_nonneg n
  have high : (n : Int) ≤ (bound : Int) - 1 := by omega
  rw [natural, ofNat, integerIn_integer name low high]
  rfl

theorem lt_of_natural {bound n : Nat} {name : String} {j : Json}
    (read : natural bound name j = .ok n) : n < bound := by
  rw [natural] at read
  cases j with
  | integer k =>
    rw [integerIn] at read
    split at read
    · rename_i within
      obtain rfl : k.toNat = n := by simpa [Except.map] using read
      omega
    · simp [Except.map] at read
  | _ => simp [integerIn, Except.map] at read

theorem float_ofFloat {x : Float} (finite : x.isFinite = true) : float (ofFloat x) = .ok x := by
  rw [ofFloat, if_pos finite]
  rfl

theorem list_map_map {α β : Type} {decode : Decoder β} {encode : α → Json} {f : α → β} {as : List α}
    (each : ∀ a ∈ as, decode (encode a) = .ok (f a)) :
    list decode (.array (as.map encode)) = .ok (as.map f) := by
  show (as.map encode).mapM decode = .ok (as.map f)
  rw [mapM_eq_ok_iff, List.forall₂_map_left_iff, List.forall₂_map_right_iff, List.forall₂_same]
  exact each

theorem list_map {α : Type} {decode : Decoder α} {encode : α → Json} {as : List α}
    (each : ∀ a ∈ as, decode (encode a) = .ok a) :
    list decode (.array (as.map encode)) = .ok as := by
  simpa using list_map_map (f := id) each

@[simp]
theorem list_ofTexts (texts : List String) : list text (ofTexts texts) = .ok texts :=
  list_map fun _ _ => rfl

theorem optional_of_ne_null {α : Type} {decode : Decoder α} {j : Json} {a : α} (value : j ≠ .null)
    (read : decode j = .ok a) : optional decode j = .ok (some a) := by
  cases j with
  | null => exact absurd rfl value
  | _ => simp only [optional, read]; rfl

theorem optional_ofOption {α : Type} {decode : Decoder α} {encode : α → Json} {o : Option α}
    (value : ∀ a, encode a ≠ .null) (each : ∀ a ∈ o, decode (encode a) = .ok a) :
    optional decode (ofOption encode o) = .ok o := by
  cases o with
  | none => rfl
  | some a => exact optional_of_ne_null (value a) (each a rfl)

end Decoder

section Members

variable {α : Type}

theorem member?_append (key : String) (members others : List (String × Json)) :
    member? key (members ++ others) = (member? key members).or (member? key others) := by
  induction members with
  | nil => rfl
  | cons m members ih =>
    obtain ⟨k, v⟩ := m
    rw [List.cons_append, member?, member?]
    split
    · rfl
    · exact ih

theorem member?_optionalMember (key name : String) (encode : α → Json) (o : Option α) :
    member? key (optionalMember name encode o) = if name = key then o.map encode else none := by
  cases o <;> simp [optionalMember, member?]

theorem forall_mem_optionalMember {name : String} {encode : α → Json} {o : Option α}
    {P : String × Json → Prop} :
    (∀ e ∈ optionalMember name encode o, P e) ↔ ∀ a ∈ o, P (name, encode a) := by
  cases o <;> simp [optionalMember]

end Members

namespace Record

/-- A member that a record knows under this name, with a good value. -/
def Takes (members : List Member) (name : String) (value : Json) : Prop :=
  ∃ m, (members.find? fun m => m.isCalled name) = some m ∧ m.name = name ∧ m.check value = .ok ()

theorem takes_of {α : Type} {members : List Member} {name : String} {decode : Decoder α} {j : Json}
    {a : α} (found : (members.find? fun m => m.isCalled name) = some (.of name decode))
    (read : decode j = .ok a) : Takes members name j := by
  refine ⟨_, found, rfl, ?_⟩
  show (decode j).map (fun _ => ()) = .ok ()
  rw [read]
  rfl

theorem scan_eq_ok {members : List Member} {seen : List String} {given : List (String × Json)}
    (taken : ∀ e ∈ given, Takes members e.1 e.2) (distinct : (given.map Prod.fst).Nodup)
    (fresh : ∀ e ∈ given, e.1 ∉ seen) : scan members seen given = .ok given := by
  induction given generalizing seen with
  | nil => rfl
  | cons e given ih =>
    obtain ⟨key, value⟩ := e
    rw [List.forall_mem_cons] at taken fresh
    rw [List.map_cons, List.nodup_cons] at distinct
    obtain ⟨⟨m, found, named, good⟩, others⟩ := taken
    dsimp only at found named good
    have unseen : ∀ e ∈ given, e.1 ∉ m.name :: seen := by
      intro e member
      rw [List.mem_cons, not_or, named]
      refine ⟨?_, fresh.2 e member⟩
      intro equal
      have earlier : e.1 ∈ given.map Prod.fst := List.mem_map_of_mem member
      exact distinct.1 (equal ▸ earlier)
    have rest := ih others distinct.2 unseen
    rw [scan, found]
    simp only [named, good] at rest ⊢
    simp only [rest, List.contains_iff_mem, if_neg fresh.1]
    rfl

/-- The members of an object that are all taken and given once are the values of a record. -/
theorem read_object (name : String) {members : List Member} {given : List (String × Json)}
    (taken : ∀ e ∈ given, Takes members e.1 e.2) (distinct : (given.map Prod.fst).Nodup) :
    ∃ r, read name members (.object given) = .ok r ∧ r.values = given := by
  refine ⟨⟨name, members.map (·.name), given, false⟩, ?_, rfl⟩
  rw [read, ofObject, scan_eq_ok taken distinct (by simp)]
  rfl

theorem read_object_bind {α : Type} {name : String} {members : List Member}
    {given : List (String × Json)} {fields : Record → Except DecodeError α} {a : α}
    (taken : ∀ e ∈ given, Takes members e.1 e.2) (distinct : (given.map Prod.fst).Nodup)
    (made : ∀ r : Record, r.values = given → fields r = .ok a) :
    (read name members (.object given) >>= fields) = .ok a := by
  obtain ⟨r, opened, values⟩ := read_object name taken distinct
  exact bind_eq_ok_iff.mpr ⟨r, opened, made r values⟩

section Values

variable {α : Type} {r : Record} {name : String} {decode : Decoder α} {j : Json} {a : α}

theorem required_eq_ok (given : member? name r.values = some j) (read : decode j = .ok a) :
    r.required name decode = .ok a := by
  rw [required, given]
  exact read

theorem exists_of_required_eq_ok (given : r.required name decode = .ok a) :
    ∃ j, decode j = .ok a := by
  rw [required] at given
  split at given
  · exact ⟨_, given⟩
  · simp at given

theorem orDefault_eq_ok (default : α) (given : member? name r.values = some j)
    (read : decode j = .ok a) : r.orDefault name default decode = .ok a := by
  rw [orDefault, given]
  exact read

theorem nullable_eq_ok {o : Option α} (given : member? name r.values = some j)
    (read : Decoder.optional decode j = .ok o) : r.nullable name decode = .ok o := by
  rw [nullable, given]
  exact read

theorem omissible_eq_ok {encode : α → Json} {o : Option α}
    (given : member? name r.values = o.map encode) (value : ∀ a, encode a ≠ .null)
    (each : ∀ a ∈ o, decode (encode a) = .ok a) : r.omissible name decode = .ok o := by
  rw [omissible, orDefault, given]
  cases o with
  | none => rfl
  | some a => exact Decoder.optional_of_ne_null (value a) (each a rfl)

theorem omissible_ofOption_eq_ok {encode : α → Json} {o : Option α}
    (given : member? name r.values = some (ofOption encode o)) (value : ∀ a, encode a ≠ .null)
    (each : ∀ a ∈ o, decode (encode a) = .ok a) : r.omissible name decode = .ok o :=
  orDefault_eq_ok none given (Decoder.optional_ofOption value each)

end Values

end Record
end Json

namespace Schema

@[simp]
theorem accepts_anything (j : Json) : anything.Accepts j := rfl

theorem accepts_ofKind_iff (kinds : List Kind) (rest : Schema) (j : Json) :
    (ofKind kinds rest).Accepts j ↔ kinds.any (·.includes j) = true ∧ rest.Accepts j := by
  simp [Accepts, violations]

theorem accepts_hasMembers_iff (names : List String) (rest : Schema) (j : Json) :
    (hasMembers names rest).Accepts j ↔ lacking names j = [] ∧ rest.Accepts j := by
  simp [Accepts, violations]

theorem accepts_member_iff (name : String) (schema rest : Schema) (j : Json) :
    (member name schema rest).Accepts j ↔
      (∀ value ∈ j.get? name, schema.Accepts value) ∧ rest.Accepts j := by
  cases given : j.get? name <;> simp [Accepts, violations, given]

theorem accepts_atLeast_iff (bound : Int) (rest : Schema) (j : Json) :
    (atLeast bound rest).Accepts j ↔ isBelow bound j = false ∧ rest.Accepts j := by
  simp [Accepts, violations]

theorem accepts_listOf_array (schema : Schema) (items : List Json) :
    (listOf schema).Accepts (.array items) ↔ ∀ j ∈ items, schema.Accepts j := by
  simp [Accepts, listOf, violations, Kind.includes]

theorem accepts_listOf_map {α : Type} {schema : Schema} {encode : α → Json} {as : List α}
    (each : ∀ a ∈ as, schema.Accepts (encode a)) :
    (listOf schema).Accepts (.array (as.map encode)) := by
  rw [accepts_listOf_array]
  intro j member
  obtain ⟨a, inside, rfl⟩ := List.mem_map.mp member
  exact each a inside

theorem accepts_withMembers_iff (members : List (String × Schema)) (j : Json) :
    (withMembers members).Accepts j ↔
      ∀ m ∈ members, ∀ value ∈ j.get? m.1, m.2.Accepts value := by
  induction members with
  | nil => simp [withMembers]
  | cons m members ih =>
    rw [List.forall_mem_cons, ← ih]
    exact accepts_member_iff m.1 m.2 (withMembers members) j

theorem accepts_record_iff (needed : List String) (members : List (String × Schema))
    (given : List (String × Json)) :
    (record needed members).Accepts (.object given) ↔
      (∀ name ∈ needed, (Json.member? name given).isSome = true) ∧
        ∀ m ∈ members, ∀ value ∈ Json.member? m.1 given, m.2.Accepts value := by
  rw [record, accepts_ofKind_iff, accepts_hasMembers_iff, accepts_withMembers_iff]
  simp [Kind.includes, lacking, Json.get?, Option.isSome_iff_ne_none, List.filter_eq_nil_iff]

theorem accepts_of_member? {name : String} {members : List (String × Json)} {j : Json}
    {schema : Schema} (given : Json.member? name members = some j) (good : schema.Accepts j) :
    ∀ value ∈ Json.member? name members, schema.Accepts value := by
  intro value found
  obtain rfl : j = value := Option.some.inj (given.symm.trans found)
  exact good

theorem accepts_just_string (s : String) : (just .string).Accepts (.text s) := rfl

theorem accepts_just_boolean (b : Bool) : (just .boolean).Accepts (.bool b) := rfl

theorem accepts_texts (texts : List String) :
    (listOf (just .string)).Accepts (Json.ofTexts texts) :=
  accepts_listOf_map fun s _ => accepts_just_string s

end Schema
end ToolTrial
