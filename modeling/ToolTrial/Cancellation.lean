import ToolTrial.Failure

/-!
Requests to stop.  A token shares its flag with every copy that is made of it, before or after; a
flag that is set stays set.  Tokens are numbered in the order in which they come to be.
-/

set_option autoImplicit false
set_option relaxedAutoImplicit false

namespace ToolTrial

/-- All tokens: the flag that each one shows, and the state of every flag. -/
structure Tokens where
  flagOf : List Nat
  flags : List Bool
deriving DecidableEq, Repr

namespace Tokens

def none : Tokens := ⟨[], []⟩

def create (t : Tokens) : Nat × Tokens :=
  (t.flagOf.length, ⟨t.flagOf ++ [t.flags.length], t.flags ++ [false]⟩)

/-- The number of the flag that a token shows; a token that does not exist shows one that is never
set. -/
def flag (t : Tokens) (token : Nat) : Nat := t.flagOf.getD token t.flags.length

/-- A token that shows the same flag as another one, and its number. -/
def copy (t : Tokens) (token : Nat) : Nat × Tokens :=
  (t.flagOf.length, ⟨t.flagOf ++ [t.flag token], t.flags⟩)

/-- The flag of a token is set, and with it those of all its copies. -/
def cancel (t : Tokens) (token : Nat) : Tokens :=
  ⟨t.flagOf, t.flags.set (t.flag token) true⟩

def isCancelled (t : Tokens) (token : Nat) : Bool :=
  t.flags.getD (t.flag token) false

def check (t : Tokens) (token : Nat) (stage : String) : Except Failure Unit :=
  if t.isCancelled token then .error (Failure.refuse (.stopped stage)) else .ok ()

end Tokens
end ToolTrial
