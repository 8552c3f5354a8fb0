import Mathlib
import ToolTrial.Proofs.Document
import ToolTrial.Proofs.FloatArithmetic
import ToolTrial.Proofs.WellFormed

/-!
Documents of the same content.  Two documents have the same value when they agree member by member,
in whatever order the members stand, and number by number; they are one document when they are
also arranged alike.  The compact text of a document shows its arrangement: no two documents have
one compact text.
-/

set_option autoImplicit false
set_option relaxedAutoImplicit false

namespace ToolTrial

namespace Number

open Float.Model (Format UnpackedFloat)
open Float.Model.UnpackedFloat

variable {x y : Float}

private theorem eq_or_zero_of_beq {u v : UnpackedFloat} (equal : u.beq v = true) :
    u = v ∨ ∃ s s', u = .zero s ∧ v = .zero s' := by
  unfold UnpackedFloat.beq at equal
  cases u with
  | infinity s =>
    cases v with
    | infinity s' => cases s <;> cases s' <;> simp_all [UnpackedFloat.compare]
    | _ => cases s <;> cases equal
  | notANumber => cases equal
  | zero s =>
    cases v with
    | zero s' => exact .inr ⟨s, s', rfl, rfl⟩
    | infinity s' => cases s' <;> cases equal
    | notANumber => cases equal
    | finite s' => cases s' <;> cases equal
  | finite s m e some =>
    cases v with
    | finite s' m' e' some' =>
      left
      cases s <;> cases s' <;> simp [UnpackedFloat.compare] at equal ⊢
      · omega
      · omega
    | infinity s' => cases s <;> cases s' <;> cases equal
    | notANumber => cases s <;> cases equal
    | zero s' => cases s <;> cases equal

private theorem toBitVec_eq_pack (x : Float) :
    x.toBits.toBitVec = UnpackedFloat.pack Format.binary64 (parts x) :=
  (pack_unpack_of_valid x.toModel.valid).symm

theorem eq_of_parts_eq (same : parts x = parts y) : x = y := by
  rw [← Float.toBits_inj, ← UInt64.toBitVec_inj, toBitVec_eq_pack, toBitVec_eq_pack, same]

private theorem isNegative_of_zero {s : Sign} (zero : parts x = .zero s) :
    isNegative x = true ↔ s = .negative := by
  have bits : x.toBits.toNat = (UnpackedFloat.pack Format.binary64 (.zero s)).toNat := by
    rw [← zero, ← toBitVec_eq_pack]
    rfl
  rw [isNegative, bits]
  cases s with
  | negative => exact iff_of_true (by decide) rfl
  | positive => exact iff_of_false (by decide) (by rintro ⟨⟩)

theorem eq_of_beq_of_isNegative (equal : (x == y) = true) (sign : isNegative x = isNegative y) :
    x = y := by
  rcases eq_or_zero_of_beq (u := parts x) (v := parts y) equal with same | ⟨s, s', zero, zero'⟩
  · exact eq_of_parts_eq same
  · have signs : s = .negative ↔ s' = .negative := by
      rw [← isNegative_of_zero zero, ← isNegative_of_zero zero', sign]
    have same : s = s' := by
      cases s <;> cases s' <;> simp_all
    exact eq_of_parts_eq (by rw [zero, zero', same])

end Number

namespace Json

mutual

/-- Documents have the same value: numbers that are equal, items in order, and the same members in
any order. -/
def same : Json → Json → Bool
  | .null, .null => true
  | .bool a, .bool b => a == b
  | .integer m, .integer n => m == n
  | .float x, .float y => x == y
  | .text s, .text t => s == t
  | .array items, .array others => sameItems items others
  | .object members, .object others =>
    members.length == others.length && sameMembers members others
  | _, _ => false
termination_by structural j => j

def sameItems : List Json → List Json → Bool
  | [], [] => true
  | a :: items, b :: others => same a b && sameItems items others
  | _, _ => false
termination_by structural items => items

/-- Each of the members is found under its key among some others, with the same value. -/
def sameMembers : List (String × Json) → List (String × Json) → Bool
  | [], _ => true
  | (k, a) :: members, others =>
    (match member? k others with
    | some b => same a b
    | none => false) && sameMembers members others
termination_by structural members => members

end

mutual

/-- Documents of the same value are arranged alike: their objects name the keys in the same order
and their zeros have the same signs. -/
def arranged : Json → Json → Bool
  | .float x, .float y => Number.isNegative x == Number.isNegative y
  | .array items, .array others => arrangedItems items others
  | .object members, .object others => arrangedMembers members others
  | _, _ => true
termination_by structural j => j

def arrangedItems : List Json → List Json → Bool
  | a :: items, b :: others => arranged a b && arrangedItems items others
  | _, _ => true
termination_by structural items => items

def arrangedMembers : List (String × Json) → List (String × Json) → Bool
  | (k, a) :: members, (l, b) :: others =>
    k == l && arranged a b && arrangedMembers members others
  | _, _ => true
termination_by structural members => members

end

section Members

variable {key : String} {value : Json} {members others : List (String × Json)}

private theorem sameMembers_cons (new : key ∉ members.map Prod.fst) :
    sameMembers members ((key, value) :: others) = sameMembers members others := by
  induction members with
  | nil => rfl
  | cons m members ih =>
    simp only [List.map_cons, List.mem_cons, not_or] at new
    rw [sameMembers, sameMembers, member?, if_neg new.1, ih new.2]

private theorem eq_of_sameMembers (distinct : (members.map Prod.fst).Nodup)
    (each : ∀ m ∈ members, ∀ j, m.2.same j = true → m.2.arranged j = true → m.2 = j)
    (length : members.length = others.length) (same : sameMembers members others = true)
    (alike : arrangedMembers members others = true) : members = others := by
  induction members generalizing others with
  | nil => exact (List.length_eq_zero_iff.mp length.symm).symm
  | cons m members ih =>
    obtain ⟨k, a⟩ := m
    obtain ⟨⟨l, b⟩, others, rfl⟩ := List.exists_cons_of_length_eq_add_one length.symm
    rw [List.map_cons, List.nodup_cons] at distinct
    rw [List.forall_mem_cons] at each
    simp only [arrangedMembers, Bool.and_eq_true, beq_iff_eq] at alike
    obtain ⟨⟨rfl, first⟩, rest⟩ := alike
    -- the key that stands first in both is looked for once, and by no later member
    rw [sameMembers, sameMembers_cons distinct.1, member?, if_pos rfl, Bool.and_eq_true] at same
    obtain rfl := each.1 b same.1 first
    rw [ih distinct.2 each.2 (Nat.succ.inj length) same.2 rest]

private theorem eq_of_sameItems {items others : List Json}
    (each : ∀ i ∈ items, ∀ j, i.same j = true → i.arranged j = true → i = j)
    (same : sameItems items others = true) (alike : arrangedItems items others = true) :
    items = others := by
  induction items generalizing others with
  | nil =>
    cases others with
    | nil => rfl
    | cons b others => cases same
  | cons a items ih =>
    cases others with
    | nil => cases same
    | cons b others =>
      rw [List.forall_mem_cons] at each
      simp only [sameItems, arrangedItems, Bool.and_eq_true] at same alike
      rw [each.1 b same.1 alike.1, ih each.2 same.2 alike.2]

end Members

variable {j k : Json}

/-- Documents of the same value that are arranged alike are one document. -/
theorem eq_of_same_of_arranged (wellFormed : j.WellFormed) (same : j.same k = true)
    (alike : j.arranged k = true) : j = k := by
  induction wellFormed generalizing k with
  | null => cases k <;> first | rfl | cases same
  | bool b => cases k <;> simp_all [Json.same]
  | integer => cases k <;> simp_all [Json.same]
  | text s => cases k <;> simp_all [Json.same]
  | float finite =>
    cases k with
    | float y =>
      have sign := beq_iff_eq.mp alike
      exact congrArg _ (Number.eq_of_beq_of_isNegative same sign)
    | _ => cases same
  | array _ ih =>
    cases k with
    | array others => exact congrArg _ (eq_of_sameItems (fun i inside _ => ih i inside) same alike)
    | _ => cases same
  | object distinct _ ih =>
    cases k with
    | object others =>
      simp only [Json.same, Bool.and_eq_true, beq_iff_eq] at same
      exact congrArg _
        (eq_of_sameMembers distinct (fun m inside _ => ih m inside) same.1 same.2 alike)
    | _ => cases same

private theorem arrangedItems_self {items : List Json}
    (each : ∀ i ∈ items, i.arranged i = true) : arrangedItems items items = true := by
  induction items with
  | nil => rfl
  | cons a items ih =>
    rw [List.forall_mem_cons] at each
    simp only [arrangedItems, each.1, ih each.2, Bool.and_self]

private theorem arrangedMembers_self {members : List (String × Json)}
    (each : ∀ m ∈ members, m.2.arranged m.2 = true) : arrangedMembers members members = true := by
  induction members with
  | nil => rfl
  | cons m members ih =>
    rw [List.forall_mem_cons] at each
    simp only [arrangedMembers, each.1, ih each.2, beq_self_eq_true, Bool.and_self]

private theorem arranged_self (wellFormed : j.WellFormed) : j.arranged j = true := by
  induction wellFormed with
  | float => exact beq_self_eq_true _
  | array _ ih => exact arrangedItems_self ih
  | object _ _ ih => exact arrangedMembers_self ih
  | _ => rfl

theorem arranged_iff_eq (wellFormed : j.WellFormed) (same : j.same k = true) :
    j.arranged k = true ↔ j = k :=
  ⟨eq_of_same_of_arranged wellFormed same, fun equal => equal ▸ arranged_self wellFormed⟩

section Compact

private theorem Readable.mono {P : Float → Prop} {depth limit : Nat} (readable : Readable P depth j)
    (within : depth ≤ limit) : Readable P limit j := by
  induction readable generalizing limit with
  | null => exact .null
  | bool b => exact .bool b
  | integer least greatest => exact .integer least greatest
  | float holds => exact .float holds
  | text s => exact .text s
  | array _ ih =>
    cases limit with
    | zero => cases within
    | succ limit => exact .array fun i inside => ih i inside (Nat.le_of_succ_le_succ within)
  | object distinct _ ih =>
    cases limit with
    | zero => cases within
    | succ limit =>
      exact .object distinct fun m inside => ih m inside (Nat.le_of_succ_le_succ within)

private theorem exists_limit {α : Type} {P : Float → Prop} {document : α → Json} {elements : List α}
    (each : ∀ a ∈ elements, ∃ depth, Readable P depth (document a)) :
    ∃ limit, ∀ a ∈ elements, Readable P limit (document a) := by
  induction elements with
  | nil => exact ⟨0, by simp⟩
  | cons a elements ih =>
    rw [List.forall_mem_cons] at each
    obtain ⟨⟨depth, first⟩, others⟩ := each
    obtain ⟨limit, rest⟩ := ih others
    refine ⟨max depth limit, List.forall_mem_cons.mpr ⟨first.mono (le_max_left _ _), ?_⟩⟩
    exact fun b inside => (rest b inside).mono (le_max_right _ _)

theorem wellFormed_iff_readable : j.WellFormed ↔ ∃ depth, Readable IsNumber depth j := by
  constructor
  · intro wellFormed
    induction wellFormed with
    | null => exact ⟨0, .null⟩
    | bool b => exact ⟨0, .bool b⟩
    | integer least greatest => exact ⟨0, .integer least greatest⟩
    | float finite => exact ⟨0, .float finite⟩
    | text s => exact ⟨0, .text s⟩
    | array _ ih =>
      obtain ⟨limit, each⟩ := exists_limit ih
      exact ⟨limit + 1, .array each⟩
    | object distinct _ ih =>
      obtain ⟨limit, each⟩ := exists_limit ih
      exact ⟨limit + 1, .object distinct each⟩
  · rintro ⟨depth, readable⟩
    induction readable with
    | null => exact .null
    | bool b => exact .bool b
    | integer least greatest => exact .integer least greatest
    | float finite => exact .float finite
    | text s => exact .text s
    | array _ ih => exact .array ih
    | object distinct _ ih => exact .object distinct ih

/-- Words read as they are in documents, but literals with a fraction or an exponent as the floats
that are nearest to them. -/
private def nearestWord? (cs : List Char) : Option Json :=
  match (Number.literal? cs).filter (!·.isExact) with
  | some l => l.nearest?.map .float
  | none => word? cs

private theorem readsAs_nearestWord? : ReadsAs IsNumber nearestWord? id := by
  refine ⟨fun cs exact => ?_, fun x finite => ?_⟩
  · have noFloat : (Number.literal? cs).filter (!·.isExact) = none := by
      rw [Option.filter_eq_none_iff]
      intro l literal
      simp [exact l literal]
    rw [nearestWord?, noFloat]
  · obtain ⟨l, literal, inexact, nearest⟩ := literal?_floatText finite
    have isFloat : (Number.literal? (floatText x)).filter (!·.isExact) = some l := by
      rw [literal, Option.filter_some, inexact]
      rfl
    rw [nearestWord?, isFloat]
    exact congrArg (Option.map Json.float) nearest

/-- No two documents have one compact text.  Documents can lose this when they are read, so it is
seen from the floats that are nearest to the words of the text. -/
theorem compact_injective (wellFormed : j.WellFormed) (wellFormed' : k.WellFormed)
    (equal : j.compact = k.compact) : j = k := by
  obtain ⟨depth, readable⟩ := wellFormed_iff_readable.mp wellFormed
  obtain ⟨depth', readable'⟩ := wellFormed_iff_readable.mp wellFormed'
  have lexemes : (emit j).map Token.lexeme = (emit k).map Token.lexeme := by
    have cut := lexemes?_compact readable
    rw [equal, lexemes?_compact readable'] at cut
    exact (Option.some.inj cut).symm
  have same {d : Json} {limit : Nat} (readable : Readable IsNumber limit d) : d.mapFloats id = d :=
    mapFloats_eq_self (readable.imp fun _ _ => rfl)
  have tokens : emit j = emit k := by
    have read := mapM_token? readsAs_nearestWord? readable
    rw [lexemes, mapM_token? readsAs_nearestWord? readable', same readable, same readable'] at read
    exact (Option.some.inj read).symm
  have machine := foldlM_emit (readable.mono (le_max_left depth depth'))
  rw [tokens, foldlM_emit (readable'.mono (le_max_right depth depth'))] at machine
  simpa using (Option.some.inj machine).symm

end Compact

end Json
end ToolTrial
