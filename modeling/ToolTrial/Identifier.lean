import ToolTrial.Text.Fold

/-!
Identifiers of conditions, tasks and runs.  Two identifiers are the same when they differ at most
in the case of ASCII letters; `key` is the text that represents all spellings of one identifier.
-/

set_option autoImplicit false
set_option relaxedAutoImplicit false

namespace ToolTrial.Identifier

def same (a b : String) : Bool :=
  Text.sameLetters a b

/-- The representative of all spellings of an identifier. -/
def key (id : String) : String :=
  Text.lower id

/-- The name shown for an issue that belongs to no single entity. -/
def unattributed : String := "*"

/-- Two full stops in a row. -/
def climbs : List Char → Bool
  | '.' :: '.' :: _ => true
  | _ :: rest => climbs rest
  | [] => false

/-- An identifier that names one file: no separator of either kind and no `..` anywhere. -/
def fileSafe (id : String) : Bool :=
  !(id.toList.any fun c => c == '/' || c == '\\') && !climbs id.toList

/-- The identifiers whose key is among the seen ones or is that of an earlier member, in order. -/
def repeated : (seen : List String) → List String → List String
  | _, [] => []
  | seen, id :: rest =>
    (if seen.contains (key id) then [id] else []) ++ repeated (key id :: seen) rest

end ToolTrial.Identifier
