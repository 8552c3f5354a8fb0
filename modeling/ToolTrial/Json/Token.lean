import ToolTrial.Json.Basic
import ToolTrial.Number.Literal

/-!
Tokens of the written form of documents.  A text is cut into punctuation, quoted texts and words; a
word is a maximal run of other characters.  Then the words are read, each of which must spell a
scalar.
-/

set_option autoImplicit false
set_option relaxedAutoImplicit false

namespace ToolTrial.Json

/-- A token: a mark of punctuation or a complete scalar. -/
inductive Token
  | openArray
  | closeArray
  | openObject
  | closeObject
  | comma
  | colon
  | scalar (value : Json)
deriving DecidableEq

/-- A piece of a text: a mark of punctuation, a quoted text or a word that has not been read. -/
inductive Lexeme
  | mark (t : Token)
  | text (s : String)
  | word (cs : List Char)
deriving DecidableEq

def isSpace (c : Char) : Bool :=
  c == ' ' || c == '\n' || c == '\r' || c == '\t'

def mark? (c : Char) : Option Token :=
  if c = '[' then some .openArray
  else if c = ']' then some .closeArray
  else if c = '\x7b' then some .openObject
  else if c = '\x7d' then some .closeObject
  else if c = ',' then some .comma
  else if c = ':' then some .colon
  else none

def isWordChar (c : Char) : Bool :=
  !isSpace c && (mark? c).isNone && c != '"'

def hexValue? (c : Char) : Option Nat :=
  if c.isDigit then some (c.toNat - '0'.toNat)
  else if 'a' ≤ c ∧ c ≤ 'f' then some (c.toNat - 'a'.toNat + 10)
  else if 'A' ≤ c ∧ c ≤ 'F' then some (c.toNat - 'A'.toNat + 10)
  else none

def unit? (a b c d : Char) : Option Nat := do
  return (((← hexValue? a) * 16 + (← hexValue? b)) * 16 + (← hexValue? c)) * 16 + (← hexValue? d)

/-- The character of a code unit that is not half of a pair. -/
def single? (unit : Nat) : Option Char :=
  if 0xD800 ≤ unit ∧ unit < 0xE000 then none else some (Char.ofNat unit)

/-- The character of a pair of code units, a high one and a low one. -/
def pair? (high low : Nat) : Option Char :=
  if 0xD800 ≤ high ∧ high < 0xDC00 ∧ 0xDC00 ≤ low ∧ low < 0xE000 then
    some (Char.ofNat (0x10000 + (high - 0xD800) * 0x400 + (low - 0xDC00)))
  else none

def shortEscape? (c : Char) : Option Char :=
  if c = '"' then some '"'
  else if c = '\\' then some '\\'
  else if c = '/' then some '/'
  else if c = 'b' then some '\x08'
  else if c = 'f' then some '\x0c'
  else if c = 'n' then some '\n'
  else if c = 'r' then some '\r'
  else if c = 't' then some '\t'
  else none

/-- The character at the front of the inside of a quoted text, escaped or not, and what follows. -/
def character? : List Char → Option (Char × List Char)
  | '\\' :: 'u' :: a :: b :: c :: d :: rest => do
    let unit ← unit? a b c d
    match single? unit, rest with
    | some ch, _ => some (ch, rest)
    | none, '\\' :: 'u' :: e :: f :: g :: h :: rest => do
      return (← pair? unit (← unit? e f g h), rest)
    | none, _ => none
  | '\\' :: c :: rest => (shortEscape? c).map (·, rest)
  | c :: rest => if c.toNat < 0x20 then none else some (c, rest)
  | [] => none

theorem length_lt_of_character? {cs rest : List Char} {c : Char}
    (h : character? cs = some (c, rest)) :
    rest.length < cs.length := by
  unfold character? at h
  split at h
  · simp only [Option.bind_eq_bind, Option.bind_eq_some_iff] at h
    obtain ⟨unit, -, h⟩ := h
    split at h
    · simp only [Option.some.injEq, Prod.mk.injEq] at h
      obtain ⟨-, rfl⟩ := h
      simp only [List.length_cons]
      omega
    · simp only [Option.bind_eq_some_iff] at h
      obtain ⟨_, -, _, -, h⟩ := h
      simp only [Option.pure_def, Option.some.injEq, Prod.mk.injEq] at h
      obtain ⟨-, rfl⟩ := h
      simp only [List.length_cons]
      omega
    · simp at h
  · simp only [Option.map_eq_some_iff, Prod.mk.injEq] at h
    obtain ⟨_, -, -, rfl⟩ := h
    simp only [List.length_cons]
    omega
  · split at h
    · simp at h
    · simp only [Option.some.injEq, Prod.mk.injEq] at h
      obtain ⟨-, rfl⟩ := h
      simp
  · simp at h

def inside? (cs : List Char) : Option (List Char × List Char) :=
  match cs with
  | '"' :: rest => some ([], rest)
  | cs =>
    match _h : character? cs with
    | none => none
    | some (c, rest) => (inside? rest).map fun (chars, after) => (c :: chars, after)
termination_by cs.length
decreasing_by exact length_lt_of_character? _h

theorem length_le_of_inside? {cs chars rest : List Char} (h : inside? cs = some (chars, rest)) :
    rest.length ≤ cs.length := by
  fun_induction inside? cs generalizing chars rest with
  | case1 after =>
    simp only [Option.some.injEq, Prod.mk.injEq] at h
    obtain ⟨-, rfl⟩ := h
    simp
  | case2 => simp at h
  | case3 cs _ c after hc ih =>
    simp only [Option.map_eq_some_iff, Prod.mk.injEq] at h
    obtain ⟨⟨t, r⟩, hr, -, rfl⟩ := h
    exact Nat.le_trans (ih hr) (Nat.le_of_lt (length_lt_of_character? hc))

def lexeme? (c : Char) (cs : List Char) : Option (Lexeme × List Char) :=
  match mark? c with
  | some t => some (.mark t, cs)
  | none =>
    if c = '"' then (inside? cs).map fun (chars, rest) => (.text (String.ofList chars), rest)
    else some (.word (c :: cs.takeWhile isWordChar), cs.dropWhile isWordChar)

theorem length_le_of_lexeme? {c : Char} {cs rest : List Char} {l : Lexeme}
    (h : lexeme? c cs = some (l, rest)) : rest.length ≤ cs.length := by
  unfold lexeme? at h
  split at h
  · simp only [Option.some.injEq, Prod.mk.injEq] at h
    obtain ⟨-, rfl⟩ := h
    exact Nat.le_refl _
  · split at h
    · simp only [Option.map_eq_some_iff, Prod.mk.injEq] at h
      obtain ⟨⟨chars, after⟩, hr, -, rfl⟩ := h
      exact length_le_of_inside? hr
    · simp only [Option.some.injEq, Prod.mk.injEq] at h
      obtain ⟨-, rfl⟩ := h
      exact (List.dropWhile_suffix _).length_le

/-- The lexemes that a text is cut into, if it consists of nothing else. -/
def lexemes? (cs : List Char) : Option (List Lexeme) :=
  match cs with
  | [] => some []
  | c :: cs =>
    if isSpace c then lexemes? cs
    else match _h : lexeme? c cs with
      | none => none
      | some (l, rest) => (lexemes? rest).map (l :: ·)
termination_by cs.length
decreasing_by
  · simp
  · exact Nat.lt_succ_of_le (length_le_of_lexeme? _h)

def word? (cs : List Char) : Option Json :=
  if cs = "null".toList then some .null
  else if cs = "true".toList then some (.bool true)
  else if cs = "false".toList then some (.bool false)
  else match (Number.literal? cs).bind Number.Literal.value? with
    | some (.integer n) => some (.integer n)
    | some (.float x) => some (.float x)
    | none => none

/-- The token that a lexeme stands for when words are read in a given way. -/
def Lexeme.token? (read : List Char → Option Json) : Lexeme → Option Token
  | .mark t => some t
  | .text s => some (.scalar (.text s))
  | .word cs => (read cs).map .scalar

def tokens? (cs : List Char) : Option (List Token) :=
  (lexemes? cs).bind fun lexemes => lexemes.mapM (Lexeme.token? word?)

end ToolTrial.Json
