import ToolTrial.Json.Writer
import ToolTrial.Text.Fold

/-!
Typed reading of documents.  A decoder gives the value that a document stands for or the first
reason why it stands for none.  A record is read from an object, whose members are looked at in
their order, unknown ones being passed over; what is missing is reported after that, in the order
of the record's declaration.  A record may also be given as an array, one item for each declared
member.
-/

set_option autoImplicit false
set_option relaxedAutoImplicit false

namespace ToolTrial.Json

/-- Why a document does not stand for a value of some type. -/
inductive DecodeError
  | wrongType (found : Json) (expected : String)
  | outOfRange (found : Int) (expected : String)
  | missingMember (name : String)
  | repeatedMember (name : String)
  | unknownVariant (found : String) (variants : List String)
  | notOneMember
  | tooFewItems (given : Nat) (record : String) (declared : Nat)
  | tooManyItems (given : Nat)
  | contradiction (flag : Bool)
deriving DecidableEq

namespace DecodeError

/-- A text between accents, as messages show values and names. -/
def marked (s : String) : String := "\x60" ++ s ++ "\x60"

/-- The kind of a document, with its value unless it is a container or null. -/
def describe : Json → String
  | .null => "null"
  | .bool b => "boolean " ++ marked (if b then "true" else "false")
  | .integer n => "integer " ++ marked (toString n)
  | .float x => "floating point " ++ marked (String.ofList (floatText x))
  | .text s => "string \"" ++ s ++ "\""
  | .array _ => "sequence"
  | .object _ => "map"

def alternatives : List String → String
  | [a, b] => marked a ++ " or " ++ marked b
  | names => "one of " ++ Text.join ", " (names.map marked)

def message : DecodeError → String
  | .wrongType found expected => "invalid type: " ++ describe found ++ ", expected " ++ expected
  | .outOfRange n expected =>
    "invalid value: integer " ++ marked (toString n) ++ ", expected " ++ expected
  | .missingMember name => "missing field " ++ marked name
  | .repeatedMember name => "duplicate field " ++ marked name
  | .unknownVariant found variants =>
    "unknown variant " ++ marked found ++ ", expected " ++ alternatives variants
  | .notOneMember => "invalid value: map, expected map with a single key"
  | .tooFewItems given record declared =>
    "invalid length " ++ toString given ++ ", expected struct " ++ record ++ " with " ++
      toString declared ++ (if declared = 1 then " element" else " elements")
  | .tooManyItems given =>
    "invalid length " ++ toString given ++ ", expected fewer elements in array"
  | .contradiction flag =>
    "sufficient_data=" ++ (if flag then "true" else "false") ++ " contradicts comparison status"

end DecodeError

abbrev Decoder (α : Type) := Json → Except DecodeError α

namespace Decoder

def text : Decoder String
  | .text s => .ok s
  | j => .error (.wrongType j "a string")

def boolean : Decoder Bool
  | .bool b => .ok b
  | j => .error (.wrongType j "a boolean")

/-- An integer between two bounds; the name of its type is shown when there is none. -/
def integerIn (least greatest : Int) (name : String) : Decoder Int
  | .integer n => if least ≤ n ∧ n ≤ greatest then .ok n else .error (.outOfRange n name)
  | j => .error (.wrongType j name)

def signed : Decoder Int := integerIn (-9223372036854775808) 9223372036854775807 "i64"

def natural (bound : Nat) (name : String) : Decoder Nat := fun j =>
  (integerIn 0 (bound - 1) name j).map Int.toNat

def smallCount : Decoder Nat := natural UInt32.size "u32"

def largeCount : Decoder Nat := natural UInt64.size "u64"

def count : Decoder Nat := natural UInt64.size "usize"

/-- A float; an integer is read as the float nearest to it. -/
def float : Decoder Float
  | .float x => .ok x
  | .integer n => .ok (Number.ofInt n)
  | j => .error (.wrongType j "f64")

def optional {α : Type} (decode : Decoder α) : Decoder (Option α)
  | .null => .ok none
  | j => (decode j).map some

/-- The items of an array, each read the same way; the first bad one is reported. -/
def list {α : Type} (decode : Decoder α) : Decoder (List α)
  | .array items => items.mapM decode
  | j => .error (.wrongType j "a sequence")

/-- One of several names.  A name may also be the key of an object whose value is null. -/
def oneOf {α : Type} (variants : List (String × α)) : Decoder α := fun j =>
  let named (name : String) : Except DecodeError α :=
    match variants.lookup name with
    | some a => .ok a
    | none => .error (.unknownVariant name (variants.map (·.1)))
  match j with
  | .text name => named name
  | .object [(name, payload)] => do
    let value ← named name
    match payload with
    | .null => return value
    | other => throw (.wrongType other "unit")
  | .object _ => .error .notOneMember
  | other => .error (.wrongType other "string or map")

end Decoder

/-- A declared member of a record: its name, its other spellings, and whether a value is good. -/
structure Member where
  name : String
  otherNames : List String
  check : Json → Except DecodeError Unit

namespace Member

def of {α : Type} (name : String) (decode : Decoder α) : Member :=
  ⟨name, [], fun j => (decode j).map fun _ => ()⟩

def orNamed (m : Member) (other : String) : Member :=
  ⟨m.name, other :: m.otherNames, m.check⟩

def isCalled (m : Member) (name : String) : Bool :=
  m.name == name || m.otherNames.contains name

end Member

/-- A record whose declared members have been looked at: their good values under their own names. -/
structure Record where
  name : String
  declared : List String
  values : List (String × Json)
  byPosition : Bool

namespace Record

def scan (members : List Member) :
    (seen : List String) → List (String × Json) → Except DecodeError (List (String × Json))
  | _, [] => .ok []
  | seen, (key, value) :: rest =>
    match members.find? fun m => m.isCalled key with
    | none => scan members seen rest
    | some m =>
      if seen.contains m.name then .error (.repeatedMember m.name)
      else do
        m.check value
        return (m.name, value) :: (← scan members (m.name :: seen) rest)

def ofObject (name : String) (members : List Member) (given : List (String × Json)) :
    Except DecodeError Record := do
  return ⟨name, members.map (·.name), ← scan members [] given, false⟩

/-- The record that the items of an array make up, in the order of declaration. -/
def ofItems (name : String) (members : List Member) (items : List Json) :
    Except DecodeError Record := do
  let names := members.map (·.name)
  let values ← scan members [] (names.zip items)
  if names.length < items.length then throw (.tooManyItems items.length)
  return ⟨name, names, values, true⟩

def read (name : String) (members : List Member) : Json → Except DecodeError Record
  | .object given => ofObject name members given
  | .array items => ofItems name members items
  | j => .error (.wrongType j ("struct " ++ name))

def absence (r : Record) (name : String) : DecodeError :=
  if r.byPosition then .tooFewItems (r.declared.idxOf name) r.name r.declared.length
  else .missingMember name

def required {α : Type} (r : Record) (name : String) (decode : Decoder α) : Except DecodeError α :=
  match member? name r.values with
  | some j => decode j
  | none => .error (r.absence name)

def orDefault {α : Type} (r : Record) (name : String) (default : α) (decode : Decoder α) :
    Except DecodeError α :=
  match member? name r.values with
  | some j => decode j
  | none => .ok default

/-- The value of a member that need not be given, but whose place in an array must be filled. -/
def nullable {α : Type} (r : Record) (name : String) (decode : Decoder α) :
    Except DecodeError (Option α) :=
  match member? name r.values with
  | some j => Decoder.optional decode j
  | none => if r.byPosition then .error (r.absence name) else .ok none

/-- The value of a member that need not be given at all. -/
def omissible {α : Type} (r : Record) (name : String) (decode : Decoder α) :
    Except DecodeError (Option α) :=
  r.orDefault name none (Decoder.optional decode)

end Record
end ToolTrial.Json
