import ToolTrial.Pattern.Ranges
import ToolTrial.Pattern.Case
import ToolTrial.Text.Blank

/-!
Patterns and what they find.  A pattern is read as a map from the places in a text where a match may
start to the places where it may end; a text is matched when some start has an end.
-/

set_option autoImplicit false
set_option relaxedAutoImplicit false

namespace ToolTrial

namespace Pattern

inductive CharSet
  | nothing
  | range (first last : Char)
  | digit
  | word
  | blank
  | union (a b : CharSet)
  | complement (a : CharSet)
  /-- Every character of which some case variant belongs to the set. -/
  | anyCase (a : CharSet)
deriving DecidableEq, Repr

def inRanges (ranges : List (Nat × Nat)) (c : Char) : Bool :=
  ranges.any fun range => range.1 ≤ c.toNat && c.toNat ≤ range.2

def CharSet.contains : CharSet → Char → Bool
  | .nothing, _ => false
  | .range first last, c => first ≤ c && c ≤ last
  | .digit, c => inRanges digitRanges c
  | .word, c => inRanges wordRanges c
  | .blank, c => Text.isBlank c
  | .union a b, c => a.contains c || b.contains c
  | .complement a, c => !a.contains c
  | .anyCase a, c => (caseFamily c).any a.contains

def CharSet.only (c : Char) : CharSet := .range c c

end Pattern

inductive Pattern
  | empty
  | one (set : Pattern.CharSet)
  | textStart
  | textEnd
  | lineStart
  | lineEnd
  | sequence (first second : Pattern)
  | either (first second : Pattern)
  /-- At least `least` and, if there is a bound, at most `most` times in a row. -/
  | repeated (least : Nat) (most : Option Nat) (body : Pattern)
deriving DecidableEq, Repr

namespace Pattern

/-- Places of either list, each once if each list has it once. -/
def union (a b : List Nat) : List Nat := a ++ b.filter fun i => !a.contains i

/-- Exactly `n` rounds; a round that changes nothing is the last one. -/
def rounds (round : List Nat → List Nat) : Nat → List Nat → List Nat
  | 0, places => places
  | n + 1, places =>
    let next := round places
    if next = places then places else rounds round n next

/-- At most `n` rounds, all the places passed through together; a round that adds nothing is the
last one. -/
def roundsUpTo (round : List Nat → List Nat) : Nat → List Nat → List Nat
  | 0, places => places
  | n + 1, places =>
    let next := union places (round places)
    if next.length = places.length then places else roundsUpTo round n next

def atLineStart (cs : List Char) (i : Nat) : Bool :=
  i == 0 || cs[i - 1]? == some '\n'

def atLineEnd (cs : List Char) (i : Nat) : Bool :=
  i == cs.length || cs[i]? == some '\n'

/-- The places in a text where a match that starts at one of the given places may end. -/
def ends (cs : List Char) : Pattern → List Nat → List Nat
  | .empty, places => places
  | .one set, places =>
    places.filterMap fun i =>
      match cs[i]? with
      | some c => if set.contains c then some (i + 1) else none
      | none => none
  | .textStart, places => places.filter (· == 0)
  | .textEnd, places => places.filter (· == cs.length)
  | .lineStart, places => places.filter (atLineStart cs)
  | .lineEnd, places => places.filter (atLineEnd cs)
  | .sequence first second, places => ends cs second (ends cs first places)
  | .either first second, places => union (ends cs first places) (ends cs second places)
  | .repeated least most body, places =>
    let further := match most with
      | some most => most - least
      | none => cs.length + 1
    roundsUpTo (ends cs body) further (rounds (ends cs body) least places)

/-- A match anywhere in a text. -/
def isFoundIn (p : Pattern) (s : String) : Bool :=
  let cs := s.toList
  !(ends cs p (List.range (cs.length + 1))).isEmpty

end Pattern
end ToolTrial
