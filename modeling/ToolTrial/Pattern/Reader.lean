import ToolTrial.Pattern.Basic

/-!
Reading patterns.  Backslashes are resolved first; the units that result drive a machine that keeps
the groups that are open and says at each unit what it may be.  A text is a pattern when the machine
ends outside of every group and set.
-/

set_option autoImplicit false
set_option relaxedAutoImplicit false

namespace ToolTrial.Pattern

/-- A character as it stands, or what a backslash and a character stand for. -/
inductive Piece
  | plain (c : Char)
  | literal (c : Char)
  | set (s : CharSet)
  | start
  | stop

/-- ASCII punctuation that a backslash makes literal; the angle brackets are not among it. -/
def isEscapable (c : Char) : Bool :=
  c.toNat < 0x80 && !c.isAlphanum && c != '<' && c != '>'

def escaped? (c : Char) : Option Piece :=
  match c with
  | 'd' => some (.set .digit)
  | 'D' => some (.set (.complement .digit))
  | 'w' => some (.set .word)
  | 'W' => some (.set (.complement .word))
  | 's' => some (.set .blank)
  | 'S' => some (.set (.complement .blank))
  | 'n' => some (.literal '\n')
  | 'r' => some (.literal '\r')
  | 't' => some (.literal '\t')
  | 'A' => some .start
  | 'z' => some .stop
  | c => if isEscapable c then some (.literal c) else none

/-- The units of a text; a backslash at its end stands for nothing. -/
def pieces? : List Char → Option (List Piece)
  | [] => some []
  | '\\' :: [] => none
  | '\\' :: c :: rest => do return (← escaped? c) :: (← pieces? rest)
  | c :: rest => do return .plain c :: (← pieces? rest)

/-- How letters, the dot, and the marks for start and end are read. -/
structure Flags where
  ignoreCase : Bool
  dotMatchesAll : Bool
  byLine : Bool

/-- An open group: the flags outside of it, its finished alternatives, and the items of the one that
is being read, last first. -/
structure Group where
  outerFlags : Flags
  alternatives : List Pattern
  items : List Pattern

structure Bracket where
  negated : Bool
  chars : CharSet

inductive BracketPhase
  /-- The opening bracket. -/
  | opened
  /-- The opening bracket and a caret. -/
  | negated
  /-- Hyphens at the front. -/
  | hyphens
  /-- Something complete. -/
  | complete
  /-- A character that may begin a range. -/
  | literal (c : Char)
  /-- A hyphen as it stands, after something complete. -/
  | hyphen
  /-- A set, which cannot begin a range. -/
  | set
  /-- A character and a hyphen. -/
  | rangeFrom (c : Char)
  /-- A set and a hyphen. -/
  | afterSet

inductive Mode
  /-- A place without an item that could be repeated. -/
  | fresh
  /-- The place after an item. -/
  | item
  /-- The place after a repetition, which a question mark makes reluctant. -/
  | repetition
  /-- The place after an opening parenthesis. -/
  | opened
  /-- The letters of flags. -/
  | flags (letters : List Char)
  /-- The inside of braces. -/
  | counts (chars : List Char)
  /-- The inside of brackets, with the outer ones. -/
  | brackets (phase : BracketPhase) (inner : Bracket) (outer : List Bracket)

/-- The machine: the flags in force, the innermost group, the others, and the mode. -/
structure Machine where
  flags : Flags
  group : Group
  outer : List Group
  mode : Mode

namespace Machine

def noFlags : Flags := ⟨false, false, false⟩

def start : Machine := ⟨noFlags, ⟨noFlags, [], []⟩, [], .fresh⟩

def push (m : Machine) (item : Pattern) : Machine :=
  { m with group := { m.group with items := item :: m.group.items }, mode := .item }

def cased (m : Machine) (s : CharSet) : CharSet :=
  if m.flags.ignoreCase then .anyCase s else s

/-- A sequence of items that are given last first. -/
def sequenceOf (items : List Pattern) : Pattern :=
  items.foldl (fun after item => .sequence item after) .empty

def alternativesOf : List Pattern → Pattern
  | [] => .empty
  | p :: ps => ps.foldl (fun after p => .either p after) p

def patternOf (g : Group) : Pattern :=
  alternativesOf (sequenceOf g.items :: g.alternatives)

def repeatLast (m : Machine) (least : Nat) (most : Option Nat) : Option Machine :=
  match m.group.items with
  | [] => none
  | item :: items =>
    some { m with
      group := { m.group with items := .repeated least most item :: items }
      mode := .repetition }

def openGroup (m : Machine) (inner : Flags) : Machine :=
  ⟨inner, ⟨m.flags, [], []⟩, m.group :: m.outer, .fresh⟩

def closeGroup (m : Machine) : Option Machine :=
  match m.outer with
  | [] => none
  | g :: outer => some (push ⟨m.group.outerFlags, g, outer, .fresh⟩ (patternOf m.group))

def nextAlternative (m : Machine) : Machine :=
  { m with
    group := ⟨m.group.outerFlags, sequenceOf m.group.items :: m.group.alternatives, []⟩
    mode := .fresh }

def openBracket (m : Machine) : Machine :=
  { m with mode := .brackets .opened ⟨false, .nothing⟩ [] }

/-- A single unit where an item may stand, marks of repetition excepted. -/
def single (m : Machine) : Piece → Option Machine
  | .literal c => some (m.push (.one (m.cased (.only c))))
  | .set s => some (m.push (.one (m.cased s)))
  | .start => some (m.push .textStart)
  | .stop => some (m.push .textEnd)
  | .plain '.' =>
    some (m.push (.one (.complement (if m.flags.dotMatchesAll then .nothing else .only '\n'))))
  | .plain '^' => some (m.push (if m.flags.byLine then .lineStart else .textStart))
  | .plain '$' => some (m.push (if m.flags.byLine then .lineEnd else .textEnd))
  | .plain '(' => some { m with mode := .opened }
  | .plain ')' => m.closeGroup
  | .plain '|' => some m.nextAlternative
  | .plain '[' => some m.openBracket
  | .plain '\x7b' => none
  | .plain '*' => none
  | .plain '+' => none
  | .plain '?' => none
  | .plain c => some (m.push (.one (m.cased (.only c))))

def afterItem (m : Machine) : Piece → Option Machine
  | .plain '*' => m.repeatLast 0 none
  | .plain '+' => m.repeatLast 1 none
  | .plain '?' => m.repeatLast 0 (some 1)
  | .plain '\x7b' => some { m with mode := .counts [] }
  | piece => m.single piece

/-- The flags that letters set, and those after a hyphen clear, in the order in which they stand. -/
def applyFlags : (on : Bool) → List Char → Flags → Option Flags
  | _, [], flags => some flags
  | true, '-' :: rest, flags => if rest.isEmpty then none else applyFlags false rest flags
  | on, 'i' :: rest, flags => applyFlags on rest { flags with ignoreCase := on }
  | on, 's' :: rest, flags => applyFlags on rest { flags with dotMatchesAll := on }
  | on, 'm' :: rest, flags => applyFlags on rest { flags with byLine := on }
  | on, 'U' :: rest, flags => applyFlags on rest flags
  | _, _, _ => none

def inFlags (m : Machine) (letters : List Char) : Piece → Option Machine
  | .plain ')' =>
    if letters.isEmpty || !letters.eraseDups.length == letters.length then none
    else do
      return { m with flags := ← applyFlags true letters.reverse m.flags, mode := .fresh }
  | .plain ':' =>
    if !letters.eraseDups.length == letters.length then none
    else do return m.openGroup (← applyFlags true letters.reverse m.flags)
  | .plain c => some { m with mode := .flags (c :: letters) }
  | _ => none

def countLimit : Nat := UInt32.size - 1

/-- A count with blanks around it. -/
def count? (cs : List Char) : Option Nat :=
  let digits := Text.dropBlanksRight (cs.dropWhile Text.isBlank)
  let n := digits.foldl (fun value c => 10 * value + (c.toNat - '0'.toNat)) 0
  if digits.isEmpty || !digits.all Char.isDigit || countLimit < n then none else some n

def bounds? (cs : List Char) : Option (Nat × Option Nat) :=
  let least := cs.takeWhile (· != ',')
  match cs.dropWhile (· != ',') with
  | [] => do
    let n ← count? least
    return (n, some n)
  | _ :: [] => do return (← count? least, none)
  | _ :: most => do
    let low ← count? least
    let high ← count? most
    if high < low then none else return (low, some high)

def inCounts (m : Machine) (chars : List Char) : Piece → Option Machine
  | .plain '\x7d' => do
    let (least, most) ← bounds? chars.reverse
    m.repeatLast least most
  | .plain c => some { m with mode := .counts (c :: chars) }
  | _ => none

def addChars (m : Machine) (b : Bracket) (outer : List Bracket) (s : CharSet)
    (phase : BracketPhase) : Machine :=
  { m with mode := .brackets phase ⟨b.negated, .union b.chars s⟩ outer }

def closeBracket (m : Machine) (b : Bracket) (outer : List Bracket) : Machine :=
  let s := if b.negated then .complement (m.cased b.chars) else m.cased b.chars
  match outer with
  | [] => m.push (.one s)
  | o :: outer => m.addChars o outer s .complete

def amongChars (m : Machine) (b : Bracket) (outer : List Bracket) : Piece → Option Machine
  | .plain ']' => some (m.closeBracket b outer)
  | .plain '[' => some { m with mode := .brackets .opened ⟨false, .nothing⟩ (b :: outer) }
  | .plain '-' => some { m with mode := .brackets .hyphen b outer }
  | .plain c => some { m with mode := .brackets (.literal c) b outer }
  | .literal c => some { m with mode := .brackets (.literal c) b outer }
  | .set s => some (m.addChars b outer s .set)
  | .start => none
  | .stop => none

/-- A unit where brackets have only been opened: a closing bracket is literal there, and so are
hyphens. -/
def atFront (m : Machine) (b : Bracket) (outer : List Bracket) : Piece → Option Machine
  | .plain ']' => some (m.addChars b outer (.only ']') .complete)
  | .plain '-' => some (m.addChars b outer (.only '-') .hyphens)
  | piece => m.amongChars b outer piece

def rangeTo (m : Machine) (b : Bracket) (outer : List Bracket) (c : Char) : Piece → Option Machine
  | .plain ']' =>
    some (m.closeBracket ⟨b.negated, .union b.chars (.union (.only c) (.only '-'))⟩ outer)
  | .plain '-' => none
  | .plain d => if c ≤ d then some (m.addChars b outer (.range c d) .complete) else none
  | .literal d => if c ≤ d then some (m.addChars b outer (.range c d) .complete) else none
  | _ => none

/-- Signs that would combine two sets when doubled; they have no such meaning here. -/
def isSetSign (c : Char) : Bool := c == '&' || c == '~'

def inBrackets (m : Machine) (phase : BracketPhase) (b : Bracket) (outer : List Bracket)
    (piece : Piece) : Option Machine :=
  match phase, piece with
  | .opened, .plain '^' => some { m with mode := .brackets .negated ⟨true, .nothing⟩ outer }
  | .opened, piece => m.atFront b outer piece
  | .negated, piece => m.atFront b outer piece
  | .hyphens, .plain '-' => some (m.addChars b outer (.only '-') .hyphens)
  | .hyphens, piece => m.amongChars b outer piece
  | .complete, piece => m.amongChars b outer piece
  | .literal c, .plain '-' => some { m with mode := .brackets (.rangeFrom c) b outer }
  | .literal c, .plain d =>
    if isSetSign c && c == d then none
    else m.amongChars ⟨b.negated, .union b.chars (.only c)⟩ outer (.plain d)
  | .literal c, piece => m.amongChars ⟨b.negated, .union b.chars (.only c)⟩ outer piece
  | .hyphen, .plain '-' => none
  | .hyphen, piece => m.amongChars ⟨b.negated, .union b.chars (.only '-')⟩ outer piece
  | .set, .plain '-' => some { m with mode := .brackets .afterSet b outer }
  | .set, piece => m.amongChars b outer piece
  | .rangeFrom c, piece => m.rangeTo b outer c piece
  | .afterSet, .plain ']' =>
    some (m.closeBracket ⟨b.negated, .union b.chars (.only '-')⟩ outer)
  | .afterSet, _ => none

def step (m : Machine) (piece : Piece) : Option Machine :=
  match m.mode, piece with
  | .fresh, piece => m.single piece
  | .item, piece => m.afterItem piece
  | .repetition, .plain '?' => some { m with mode := .item }
  | .repetition, piece => m.afterItem piece
  | .opened, .plain '?' => some { m with mode := .flags [] }
  | .opened, piece => (m.openGroup m.flags).single piece
  | .flags letters, piece => m.inFlags letters piece
  | .counts chars, piece => m.inCounts chars piece
  | .brackets phase b outer, piece => m.inBrackets phase b outer piece

/-- The pattern that has been read, when nothing is open. -/
def pattern? (m : Machine) : Option Pattern :=
  match m.outer, m.mode with
  | [], .fresh => some (patternOf m.group)
  | [], .item => some (patternOf m.group)
  | [], .repetition => some (patternOf m.group)
  | _, _ => none

end Machine

def read? (s : String) : Option Pattern := do
  let pieces ← pieces? s.toList
  let last ← pieces.foldlM Machine.step Machine.start
  last.pattern?

end ToolTrial.Pattern
