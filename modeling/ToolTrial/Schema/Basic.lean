import ToolTrial.Json.Writer
import ToolTrial.Text.Fold

/-!
Schemas: rules that a document is held to before it is decoded.  A schema is a chain of rules, and a
document is held to each of them in turn; a rule about one kind of document says nothing about the
other kinds.  `violations` lists every breach, `Accepts` says that there is none.
-/

set_option autoImplicit false
set_option relaxedAutoImplicit false

namespace ToolTrial

/-- The kinds of documents that rules name.  Every integer is a number, and so is every float; a
float without a fraction is an integer too. -/
inductive Kind
  | array
  | boolean
  | integer
  | null
  | number
  | object
  | string
deriving DecidableEq, Repr

def Kind.name : Kind → String
  | .array => "array"
  | .boolean => "boolean"
  | .integer => "integer"
  | .null => "null"
  | .number => "number"
  | .object => "object"
  | .string => "string"

def Kind.includes : Kind → Json → Bool
  | .array, .array _ => true
  | .boolean, .bool _ => true
  | .integer, .integer _ => true
  | .integer, .float x => Number.isWhole x
  | .null, .null => true
  | .number, .integer _ => true
  | .number, .float _ => true
  | .object, .object _ => true
  | .string, .text _ => true
  | _, _ => false

inductive Schema
  /-- No rule. -/
  | anything
  /-- The document is of one of these kinds, which are in the order of their names. -/
  | ofKind (kinds : List Kind) (rest : Schema)
  /-- An object has these members. -/
  | hasMembers (names : List String) (rest : Schema)
  /-- A member of an object, if it is there, keeps to a schema. -/
  | member (name : String) (schema : Schema) (rest : Schema)
  /-- Every item of an array keeps to a schema. -/
  | items (schema : Schema) (rest : Schema)
  /-- A number is not below a bound. -/
  | atLeast (bound : Int) (rest : Schema)

namespace Schema

inductive Violation
  | wrongKind (found : Json) (kinds : List Kind)
  | missingMember (name : String)
  | tooSmall (found : Json) (bound : Int)
deriving DecidableEq

def Violation.message : Violation → String
  | .wrongKind found [kind] => found.compactText ++ " is not of type \"" ++ kind.name ++ "\""
  | .wrongKind found kinds =>
    found.compactText ++ " is not of types " ++
      Text.join ", " (kinds.map fun k => "\"" ++ k.name ++ "\"")
  | .missingMember name => String.ofList (Json.quoted name) ++ " is a required property"
  | .tooSmall found bound =>
    found.compactText ++ " is less than the minimum of " ++ toString bound

def isBelow (bound : Int) : Json → Bool
  | .integer n => n < bound
  | .float x => x < Number.ofInt bound
  | _ => false

def lacking (names : List String) : Json → List String
  | .object members => names.filter fun name => (Json.member? name members).isNone
  | _ => []

/-- Every breach of the rules, in the order of the rules and, within a rule, of the document. -/
def violations : Schema → Json → List Violation
  | .anything, _ => []
  | .ofKind kinds rest, j =>
    (if kinds.any (·.includes j) then [] else [.wrongKind j kinds]) ++ violations rest j
  | .hasMembers names rest, j => (lacking names j).map .missingMember ++ violations rest j
  | .member name schema rest, j =>
    (match j.get? name with
      | some value => violations schema value
      | none => []) ++ violations rest j
  | .items schema rest, j =>
    (match j with
      | .array elements => elements.flatMap (violations schema)
      | _ => []) ++ violations rest j
  | .atLeast bound rest, j =>
    (if isBelow bound j then [.tooSmall j bound] else []) ++ violations rest j

def Accepts (s : Schema) (j : Json) : Prop := s.violations j = []

instance (s : Schema) (j : Json) : Decidable (s.Accepts j) :=
  inferInstanceAs (Decidable (s.violations j = []))

end Schema
end ToolTrial
