import ToolTrial.Json.Basic
import ToolTrial.Path.Basic

/-!
Documents in memory, kept in the order of their paths.  Two texts that name the same place are one
path, of which the first text is kept.
-/

set_option autoImplicit false
set_option relaxedAutoImplicit false

namespace ToolTrial

/-- Documents with their paths, in the order of paths. -/
abbrev Documents := List (Path × Json)

namespace Documents

def lookup (path : Path) : Documents → Option Json
  | [] => none
  | (p, j) :: rest => if p.same path then some j else lookup path rest

/-- The documents with one more, or with another one at a path that has one. -/
def insert (path : Path) (document : Json) : Documents → Documents
  | [] => [(path, document)]
  | (p, j) :: rest =>
    if p.same path then (p, document) :: rest
    else if path.before p then (path, document) :: (p, j) :: rest
    else (p, j) :: insert path document rest

/-- The documents right inside a directory. -/
def inside (dir : Path) (docs : Documents) : Documents :=
  docs.filter fun e => e.1.parent?.any dir.same

/-- A directory that holds a document at some depth, or is one. -/
def hasDirectory (dir : Path) (docs : Documents) : Bool :=
  docs.any fun e => e.1.startsWith dir

end Documents
end ToolTrial
