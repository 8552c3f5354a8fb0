/-!
Structured documents.  Integers and floats are different values, the members of an object keep their
order, and a member set twice keeps its first place and its last value.
-/

set_option autoImplicit false
set_option relaxedAutoImplicit false

namespace ToolTrial

/-- A structured document. -/
inductive Json
  | null
  | bool (value : Bool)
  | integer (value : Int)
  | float (value : Float)
  | text (value : String)
  | array (items : List Json)
  | object (members : List (String × Json))

namespace Json

instance : Inhabited Json := ⟨.null⟩

mutual

/-- Equality of documents, members in order. -/
def equal : Json → Json → Bool
  | .null, .null => true
  | .bool a, .bool b => a == b
  | .integer a, .integer b => a == b
  | .float a, .float b => decide (a = b)
  | .text a, .text b => a == b
  | .array as, .array bs => equalItems as bs
  | .object as, .object bs => equalMembers as bs
  | _, _ => false
termination_by structural a => a

def equalItems : List Json → List Json → Bool
  | [], [] => true
  | a :: as, b :: bs => equal a b && equalItems as bs
  | _, _ => false
termination_by structural as => as

def equalMembers : List (String × Json) → List (String × Json) → Bool
  | [], [] => true
  | (k, a) :: as, (l, b) :: bs => k == l && equal a b && equalMembers as bs
  | _, _ => false
termination_by structural as => as

end

mutual

private theorem eq_of_equal (a b : Json) (h : equal a b = true) : a = b := by
  cases a <;> cases b <;> simp [equal] at h ⊢
  · exact h
  · exact h
  · exact h
  · exact h
  · exact eq_of_equalItems _ _ h
  · exact eq_of_equalMembers _ _ h
termination_by structural a

private theorem eq_of_equalItems (as bs : List Json) (h : equalItems as bs = true) : as = bs := by
  cases as <;> cases bs <;> simp [equalItems] at h ⊢
  exact ⟨eq_of_equal _ _ h.1, eq_of_equalItems _ _ h.2⟩
termination_by structural as

private theorem eq_of_equalMembers (as bs : List (String × Json)) (h : equalMembers as bs = true) :
    as = bs := by
  rcases as with _ | ⟨⟨k, a⟩, as⟩ <;> rcases bs with _ | ⟨⟨l, b⟩, bs⟩ <;>
    simp [equalMembers] at h ⊢
  exact ⟨⟨h.1.1, eq_of_equal _ _ h.1.2⟩, eq_of_equalMembers _ _ h.2⟩
termination_by structural as

end

mutual

private theorem equal_self (a : Json) : equal a a = true := by
  cases a <;> simp [equal]
  · exact equalItems_self _
  · exact equalMembers_self _
termination_by structural a

private theorem equalItems_self (as : List Json) : equalItems as as = true := by
  cases as <;> simp [equalItems]
  exact ⟨equal_self _, equalItems_self _⟩
termination_by structural as

private theorem equalMembers_self (as : List (String × Json)) : equalMembers as as = true := by
  rcases as with _ | ⟨⟨k, a⟩, as⟩ <;> simp [equalMembers]
  exact ⟨equal_self _, equalMembers_self _⟩
termination_by structural as

end

theorem equal_iff (a b : Json) : equal a b = true ↔ a = b :=
  ⟨eq_of_equal a b, fun h => h ▸ equal_self a⟩

instance : DecidableEq Json := fun a b => decidable_of_iff _ (equal_iff a b)

def member? (key : String) : List (String × Json) → Option Json
  | [] => none
  | (k, v) :: rest => if k = key then some v else member? key rest

/-- The members with one set: in place if it was there, at the end otherwise. -/
def setMember (key : String) (value : Json) : List (String × Json) → List (String × Json)
  | [] => [(key, value)]
  | (k, v) :: rest => if k = key then (k, value) :: rest else (k, v) :: setMember key value rest

/-- The member of an object; other documents have none. -/
def get? (key : String) : Json → Option Json
  | .object members => member? key members
  | _ => none

/-- A float as a document; what is not finite has no number and is null. -/
def ofFloat (x : Float) : Json :=
  if x.isFinite then .float x else .null

def ofOption {α : Type} (encode : α → Json) : Option α → Json
  | none => .null
  | some a => encode a

/-- A member that is left out when its value is absent. -/
def optionalMember {α : Type} (key : String) (encode : α → Json) : Option α → List (String × Json)
  | none => []
  | some a => [(key, encode a)]

def ofNat (n : Nat) : Json := .integer n

def ofTexts (texts : List String) : Json := .array (texts.map .text)

end Json
end ToolTrial
