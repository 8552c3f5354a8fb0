import ToolTrial.Json.Token

/-!
Reading documents.  Tokens drive a machine whose stack holds the containers that are open; a text is
a document when the machine ends with one value and nothing open.  Containers may be nested only to
a limit.
-/

set_option autoImplicit false
set_option relaxedAutoImplicit false

namespace ToolTrial.Json

/-- An open container with what it holds so far, up to the value that is being read.  Items are kept
last first; an object knows the key of that value. -/
inductive Frame
  | array (items : List Json)
  | object (members : List (String × Json)) (key : String)

inductive Expected
  /-- A value. -/
  | value
  /-- The first item of an array, or its end. -/
  | itemOrClose
  /-- The first key of an object, or its end. -/
  | keyOrClose
  /-- The key that follows the given members. -/
  | key (members : List (String × Json))
  /-- The colon after a key that follows the given members. -/
  | colon (members : List (String × Json)) (key : String)
  /-- A comma or the end of the innermost container, after the value given. -/
  | next (value : Json)

/-- The machine: what may come next, and the open containers from the inside out. -/
structure Machine where
  expected : Expected
  stack : List Frame

namespace Machine

def start : Machine := ⟨.value, []⟩

def atValue (limit : Nat) (stack : List Frame) : Token → Option Machine
  | .scalar v => some ⟨.next v, stack⟩
  | .openArray => if stack.length < limit then some ⟨.itemOrClose, stack⟩ else none
  | .openObject => if stack.length < limit then some ⟨.keyOrClose, stack⟩ else none
  | _ => none

/-- The machine after a value: the innermost container takes it and goes on or closes. -/
def afterValue (value : Json) : List Frame → Token → Option Machine
  | .array items :: stack, .comma => some ⟨.value, .array (value :: items) :: stack⟩
  | .array items :: stack, .closeArray => some ⟨.next (.array (value :: items).reverse), stack⟩
  | .object members key :: stack, .comma => some ⟨.key (setMember key value members), stack⟩
  | .object members key :: stack, .closeObject =>
    some ⟨.next (.object (setMember key value members)), stack⟩
  | _, _ => none

def step (limit : Nat) (m : Machine) (t : Token) : Option Machine :=
  match m.expected, t with
  | .value, t => atValue limit m.stack t
  | .itemOrClose, .closeArray => some ⟨.next (.array []), m.stack⟩
  | .itemOrClose, t => atValue limit (.array [] :: m.stack) t
  | .keyOrClose, .closeObject => some ⟨.next (.object []), m.stack⟩
  | .keyOrClose, .scalar (.text key) => some ⟨.colon [] key, m.stack⟩
  | .key members, .scalar (.text key) => some ⟨.colon members key, m.stack⟩
  | .colon members key, .colon => some ⟨.value, .object members key :: m.stack⟩
  | .next value, t => afterValue value m.stack t
  | _, _ => none

def document? : Machine → Option Json
  | ⟨.next value, []⟩ => some value
  | _ => none

end Machine

/-- The greatest number of containers that may be open at once in a document. -/
def depthLimit : Nat := 127

/-- The document that a text spells, with containers nested at most to the limit. -/
def read? (limit : Nat) (s : String) : Option Json := do
  let tokens ← tokens? s.toList
  let last ← tokens.foldlM (Machine.step limit) Machine.start
  last.document?

def parse? (s : String) : Option Json := read? depthLimit s

end ToolTrial.Json
