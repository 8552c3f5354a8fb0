import ToolTrial.Text.Fold

/-!
Paths.  A path is a text, and is shown as it was given; what it names is decided by its
components. Repeated separators, a separator at the end, and `.` anywhere but at the front of a
relative path are no components.
-/

set_option autoImplicit false
set_option relaxedAutoImplicit false

namespace ToolTrial

structure Path where
  text : String
deriving DecidableEq, Repr

namespace Path

instance : Inhabited Path := ⟨⟨""⟩⟩

inductive Component
  | root
  | current
  | parent
  | name (s : String)
deriving DecidableEq, Repr

/-- The pieces between separators: one more than there are separators. -/
def split : List Char → List Char × List (List Char)
  | [] => ([], [])
  | c :: cs =>
    let (first, rest) := split cs
    if c = '/' then ([], first :: rest) else (c :: first, rest)

/-- The piece in front of the first separator, or all of a path without one. -/
def lead (p : Path) : List Char := (split p.text.toList).1

def tail (p : Path) : List (List Char) := (split p.text.toList).2

def isAbsolute (p : Path) : Bool := p.text.toList.head? == some '/'

/-- A piece that is no step when it is not the first one. -/
def isIdle (piece : List Char) : Bool := piece == [] || piece == ['.']

def step (piece : List Char) : Component :=
  if piece = ['.', '.'] then .parent
  else if piece = ['.'] then .current
  else .name (String.ofList piece)

def components (p : Path) : List Component :=
  let first := if p.isAbsolute then [.root] else if p.lead.isEmpty then [] else [step p.lead]
  first ++ (p.tail.filter fun piece => !isIdle piece).map step

/-- Two texts that name the same place. -/
def same (p q : Path) : Bool := p.components == q.components

/-- The order of steps: root, `.`, `..`, then names by their characters. -/
def Component.before : Component → Component → Bool
  | .root, .root => false
  | .root, _ => true
  | .current, .root | .current, .current => false
  | .current, _ => true
  | .parent, .name _ => true
  | .parent, _ => false
  | .name s, .name t => s < t
  | .name _, _ => false

/-- The order of sequences of steps, step by step, the shorter of two first. -/
def stepsBefore : List Component → List Component → Bool
  | [], [] => false
  | [], _ :: _ => true
  | _ :: _, [] => false
  | a :: as, b :: bs => a.before b || (a == b && stepsBefore as bs)

def before (p q : Path) : Bool := stepsBefore p.components q.components

/-- A path at or below another one. -/
def startsWith (p dir : Path) : Bool := dir.components.isPrefixOf p.components

/-- Pieces without idle ones at their end. -/
def solid (pieces : List (List Char)) : List (List Char) :=
  (pieces.reverse.dropWhile isIdle).reverse

def glue (first : List Char) (rest : List (List Char)) : Path :=
  ⟨String.ofList (first ++ rest.flatMap fun piece => '/' :: piece)⟩

/-- The path without its last step; the root and the empty path have none. -/
def parent? (p : Path) : Option Path :=
  match solid p.tail with
  | [] => if p.lead.isEmpty then none else some ⟨""⟩
  | steps =>
    let upper := solid steps.dropLast
    some (if upper.isEmpty && p.lead.isEmpty then ⟨"/"⟩ else glue p.lead upper)

/-- The name that a path ends in, if its last step is a name. -/
def fileName? (p : Path) : Option String :=
  match p.components.getLast? with
  | some (.name s) => some s
  | _ => none

/-- A path below another one.  An absolute path stays what it is. -/
def join (p q : Path) : Path :=
  if q.isAbsolute || p.text.isEmpty then q
  else if p.text.toList.getLast? == some '/' then ⟨p.text ++ q.text⟩
  else ⟨p.text ++ "/" ++ q.text⟩

def child (p : Path) (name : String) : Path := p.join ⟨name⟩

/-- The path with another last name, for a path that ends in one. -/
def withFileName (p : Path) (name : String) : Path :=
  (p.parent?.getD ⟨""⟩).child name

/-- A path that only a directory answers to, by its last characters. -/
def asksForDirectory (p : Path) : Bool :=
  match p.tail.getLast? with
  | some piece => isIdle piece
  | none => false

/-- A path whose last piece is `.`, separators at the end apart.  Nothing can be made under it. -/
def endsInDot (p : Path) : Bool :=
  (p.tail.reverse.dropWhile (· == [])).head? == some ['.']

end Path
end ToolTrial
