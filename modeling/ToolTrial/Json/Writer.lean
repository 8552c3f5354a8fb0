import ToolTrial.Json.Basic
import ToolTrial.Number.Layout

/-!
The written forms of documents.  `compact` has no blanks; `pretty` puts every item and member on a
line of its own, two blanks deeper than its container, and leaves empty containers closed up.
-/

set_option autoImplicit false
set_option relaxedAutoImplicit false

namespace ToolTrial.Json

/-- Numbers in documents keep a point, and exponents outside -5 … 15 are written in scientific form
with a sign. -/
def numbers : Number.Layout where
  positional := fun exponent => -5 ≤ exponent && exponent < 16
  pointZero := true
  tie := .toEven

def hexDigit (n : Nat) : Char := Nat.digitChar n

/-- A character inside a quoted text: the quote, the backslash and control characters are escaped.
-/
def escape (c : Char) : List Char :=
  if c = '"' then ['\\', '"']
  else if c = '\\' then ['\\', '\\']
  else if c = '\n' then ['\\', 'n']
  else if c = '\r' then ['\\', 'r']
  else if c = '\t' then ['\\', 't']
  else if c = '\x08' then ['\\', 'b']
  else if c = '\x0c' then ['\\', 'f']
  else if c.toNat < 0x20 then
    ['\\', 'u', '0', '0', hexDigit (c.toNat / 16), hexDigit (c.toNat % 16)]
  else [c]

def quoted (s : String) : List Char :=
  '"' :: (s.toList.flatMap escape ++ ['"'])

/-- A number, or null for what has none. -/
def floatText (x : Float) : List Char :=
  if x.isFinite then numbers.finite x else "null".toList

def scalar : Json → List Char
  | .null => "null".toList
  | .bool b => (if b then "true" else "false").toList
  | .integer n => (toString n).toList
  | .float x => floatText x
  | .text s => quoted s
  | .array _ => []
  | .object _ => []

mutual

def compact : Json → List Char
  | .array items => '[' :: (compactItems items ++ [']'])
  | .object members => '\x7b' :: (compactMembers members ++ ['\x7d'])
  | j => scalar j
termination_by structural j => j

def compactItems : List Json → List Char
  | [] => []
  | j :: rest => compact j ++ (if rest.isEmpty then [] else ',' :: compactItems rest)
termination_by structural items => items

def compactMembers : List (String × Json) → List Char
  | [] => []
  | (k, j) :: rest =>
    quoted k ++ ':' :: (compact j ++ (if rest.isEmpty then [] else ',' :: compactMembers rest))
termination_by structural members => members

end

def newline (depth : Nat) : List Char :=
  '\n' :: List.replicate (2 * depth) ' '

mutual

/-- The form with one item or member a line, inside containers nested to the given depth. -/
def pretty (depth : Nat) : Json → List Char
  | .array items =>
    if items.isEmpty then ['[', ']']
    else '[' :: (prettyItems (depth + 1) items ++ newline depth ++ [']'])
  | .object members =>
    if members.isEmpty then ['\x7b', '\x7d']
    else '\x7b' :: (prettyMembers (depth + 1) members ++ newline depth ++ ['\x7d'])
  | j => scalar j
termination_by structural j => j

def prettyItems (depth : Nat) : List Json → List Char
  | [] => []
  | j :: rest =>
    newline depth ++ pretty depth j ++ (if rest.isEmpty then [] else ',' :: prettyItems depth rest)
termination_by structural items => items

def prettyMembers (depth : Nat) : List (String × Json) → List Char
  | [] => []
  | (k, j) :: rest =>
    newline depth ++ quoted k ++ ':' :: ' ' :: (pretty depth j ++
      (if rest.isEmpty then [] else ',' :: prettyMembers depth rest))
termination_by structural members => members

end

def compactText (j : Json) : String := String.ofList j.compact

/-- The form in which documents are saved: pretty, with a line break at the end. -/
def savedText (j : Json) : String := String.ofList (j.pretty 0 ++ ['\n'])

end ToolTrial.Json
