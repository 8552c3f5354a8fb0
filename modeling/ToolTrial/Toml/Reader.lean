import ToolTrial.Number.Literal
import ToolTrial.Toml.Basic

/-!
Reading tables of settings.  A text is a sequence of headers and assignments, one a line.  A reader
takes a piece off the front of a text and gives the rest; those that call each other are given fuel,
of which a text never needs more than it has characters.
-/

set_option autoImplicit false
set_option relaxedAutoImplicit false

namespace ToolTrial.Toml

def isBlank (c : Char) : Bool := c == ' ' || c == '\t'

def isVisible (c : Char) : Bool := c == '\t' || (0x20 ≤ c.toNat && c.toNat != 0x7F)

def skipBlanks (cs : List Char) : List Char := cs.dropWhile isBlank

def lineBreak? : List Char → Option (List Char)
  | '\n' :: rest => some rest
  | '\r' :: '\n' :: rest => some rest
  | _ => none

def skipFiller? : (inComment : Bool) → List Char → Option (List Char)
  | _, [] => some []
  | _, '\n' :: rest => skipFiller? false rest
  | _, '\r' :: '\n' :: rest => skipFiller? false rest
  | true, c :: rest => if isVisible c then skipFiller? true rest else none
  | false, '#' :: rest => skipFiller? true rest
  | false, c :: rest => if isBlank c then skipFiller? false rest else some (c :: rest)

/-- The end of a line: blanks, a comment, and a line break or the end of the text. -/
def lineEnd? (cs : List Char) : Option (List Char) :=
  let rest := match skipBlanks cs with
    | '#' :: comment => comment.dropWhile isVisible
    | rest => rest
  if rest.isEmpty then some [] else lineBreak? rest

def digit? (base : Nat) (c : Char) : Option Nat :=
  let value :=
    if c.isDigit then c.toNat - '0'.toNat
    else if 'a' ≤ c ∧ c ≤ 'f' then c.toNat - 'a'.toNat + 10
    else if 'A' ≤ c ∧ c ≤ 'F' then c.toNat - 'A'.toNat + 10
    else base
  if value < base then some value else none

def number? (base : Nat) (digits : List Char) : Option Nat :=
  if digits.isEmpty then none
  else digits.foldlM (fun value c => do return base * value + (← digit? base c)) 0

def codePoint? (digits : List Char) : Option Char := do
  let n ← number? 16 digits
  if n.isValidChar then some (Char.ofNat n) else none

def escape? : List Char → Option (Char × List Char)
  | 'b' :: rest => some ('\x08', rest)
  | 't' :: rest => some ('\t', rest)
  | 'n' :: rest => some ('\n', rest)
  | 'f' :: rest => some ('\x0c', rest)
  | 'r' :: rest => some ('\r', rest)
  | 'e' :: rest => some ('\x1b', rest)
  | '"' :: rest => some ('"', rest)
  | '\\' :: rest => some ('\\', rest)
  | c :: rest =>
    let width := if c = 'x' then 2 else if c = 'u' then 4 else if c = 'U' then 8 else 0
    if width = 0 ∨ rest.length < width then none
    else do return (← codePoint? (rest.take width), rest.drop width)
  | [] => none

def quotedLine? (quote : Char) : (fuel : Nat) → List Char → Option (List Char × List Char)
  | 0, _ => none
  | _, [] => none
  | fuel + 1, c :: rest =>
    if c = quote then some ([], rest)
    else if c = '\\' ∧ quote = '"' then do
      let (e, rest) ← escape? rest
      let (cs, rest) ← quotedLine? quote fuel rest
      return (e :: cs, rest)
    else if isVisible c then do
      let (cs, rest) ← quotedLine? quote fuel rest
      return (c :: cs, rest)
    else none

/-- The end of a text of several lines: three quotes, after up to two that belong to the text. -/
def closing? (quote : Char) (cs : List Char) : Option (List Char × List Char) :=
  let run := (cs.takeWhile (· == quote)).length
  if run < 3 then none
  else
    let kept := min 2 (run - 3)
    some (cs.take kept, cs.drop (kept + 3))

/-- What follows a backslash at the end of a line: blanks and line breaks are passed over. -/
def continuation? (cs : List Char) : Option (List Char) := do
  let rest ← lineBreak? (skipBlanks cs)
  return rest.dropWhile fun c => isBlank c || c == '\n' || c == '\r'

def quotedLines? (quote : Char) : (fuel : Nat) → List Char → Option (List Char × List Char)
  | 0, _ => none
  | _, [] => none
  | fuel + 1, c :: rest =>
    match closing? quote (c :: rest) with
    | some taken => some taken
    | none =>
      let more (c : Char) (rest : List Char) : Option (List Char × List Char) := do
        let (cs, rest) ← quotedLines? quote fuel rest
        return (c :: cs, rest)
      if c = '\\' ∧ quote = '"' then
        match continuation? rest with
        | some rest => quotedLines? quote fuel rest
        | none => do
          let (e, rest) ← escape? rest
          more e rest
      else if isVisible c || c = '\n' || (c = '\r' && rest.head? = some '\n') then more c rest
      else none

def oneLine? (quote : Char) (cs : List Char) : Option (String × List Char) := do
  let (chars, rest) ← quotedLine? quote (cs.length + 1) cs
  return (String.ofList chars, rest)

/-- A quoted text of either form, after its first quote.  A line break right after three opening
quotes does not belong to it. -/
def quoted? (quote : Char) (cs : List Char) : Option (String × List Char) :=
  if cs.take 2 = [quote, quote] then do
    let inner := cs.drop 2
    let inner := (lineBreak? inner).getD inner
    let (chars, rest) ← quotedLines? quote (inner.length + 1) inner
    return (String.ofList chars, rest)
  else oneLine? quote cs

def isBareKeyChar (c : Char) : Bool := c.isAlphanum || c == '_' || c == '-'

def key? : List Char → Option (String × List Char)
  | '"' :: rest => oneLine? '"' rest
  | '\'' :: rest => oneLine? '\'' rest
  | cs =>
    let key := cs.takeWhile isBareKeyChar
    if key.isEmpty then none else some (String.ofList key, cs.dropWhile isBareKeyChar)

def keyPath? : (fuel : Nat) → List Char → Option (List String × List Char)
  | 0, _ => none
  | fuel + 1, cs => do
    let (key, rest) ← key? (skipBlanks cs)
    match skipBlanks rest with
    | '.' :: rest =>
      let (keys, rest) ← keyPath? fuel rest
      return (key :: keys, rest)
    | rest => return ([key], rest)

/-- Digits without the underscores between them; an underscore has a digit on either side. -/
def plainDigits? (cs : List Char) : Option (List Char) :=
  let rec go : (afterDigit : Bool) → List Char → Option (List Char)
    | afterDigit, [] => if afterDigit then some [] else none
    | afterDigit, '_' :: rest => if afterDigit then go false rest else none
    | _, c :: rest => (go true rest).map (c :: ·)
  go false cs

def whole? (cs : List Char) : Option Nat := do
  let digits ← plainDigits? cs
  if digits.length ≠ 1 ∧ digits.head? = some '0' then none else number? 10 digits

def unsigned (cs : List Char) : List Char :=
  if cs.head? = some '+' || cs.head? = some '-' then cs.drop 1 else cs

/-- An integer of any size, in base 10 with an optional sign or in one of the marked bases without.
-/
def anyInteger? (cs : List Char) : Option Int :=
  match cs with
  | '0' :: 'x' :: rest => do return (← number? 16 (← plainDigits? rest) : Nat)
  | '0' :: 'o' :: rest => do return (← number? 8 (← plainDigits? rest) : Nat)
  | '0' :: 'b' :: rest => do return (← number? 2 (← plainDigits? rest) : Nat)
  | cs => do
    let n ← whole? (unsigned cs)
    return if cs.head? = some '-' then -(n : Int) else n

def leastInteger : Int := -(Nat.pow 2 127)

def greatestInteger : Int := Nat.pow 2 128 - 1

def integer? (cs : List Char) : Option Int :=
  (anyInteger? cs).filter fun n => leastInteger ≤ n && n ≤ greatestInteger

/-- The digits of a number without a sign name a number that a float can come near to. -/
def isInReach (body : List Char) : Bool :=
  ((Number.literal? (body.filter (· != '_'))).bind Number.Literal.nearest?).isSome

/-- The text of a number with a fraction, an exponent or both, or of a value beyond all numbers. -/
def isFloat (cs : List Char) : Bool :=
  let body := unsigned cs
  let isMark (c : Char) : Bool := c == 'e' || c == 'E'
  let mantissa := body.takeWhile fun c => !isMark c
  let exponent := body.dropWhile fun c => !isMark c
  let digits (cs : List Char) : Bool := ((plainDigits? cs).bind (number? 10)).isSome
  let fraction := mantissa.dropWhile (· != '.')
  body == "inf".toList || body == "nan".toList ||
    ((whole? (mantissa.takeWhile (· != '.'))).isSome &&
      (fraction.isEmpty || digits (fraction.drop 1)) &&
      (exponent.isEmpty || digits (unsigned (exponent.drop 1))) &&
      !(fraction.isEmpty && exponent.isEmpty) && isInReach body)

def twoDigits? (least greatest : Nat) (cs : List Char) : Option (List Char) := do
  let n ← number? 10 (cs.take 2)
  if cs.length < 2 ∨ n < least ∨ greatest < n then none else some (cs.drop 2)

/-- A time of day at the front of a text, seconds and their fraction being optional. -/
def time? (cs : List Char) : Option (List Char) := do
  let ':' :: rest ← twoDigits? 0 23 cs | none
  let rest ← twoDigits? 0 59 rest
  match rest with
  | ':' :: rest =>
    match ← twoDigits? 0 60 rest with
    | '.' :: rest =>
      if rest.head?.any Char.isDigit then some (rest.dropWhile Char.isDigit) else none
    | rest => some rest
  | rest => some rest

def offset? (cs : List Char) : Option (List Char) :=
  match cs with
  | 'Z' :: rest => some rest
  | 'z' :: rest => some rest
  | c :: rest =>
    if c = '+' ∨ c = '-' then do
      let ':' :: rest ← twoDigits? 0 23 rest | none
      twoDigits? 0 59 rest
    else some (c :: rest)
  | [] => some []

def daysIn (year month : Nat) : Nat :=
  if month = 2 then
    if year % 4 = 0 ∧ (year % 100 ≠ 0 ∨ year % 400 = 0) then 29 else 28
  else if month = 4 ∨ month = 6 ∨ month = 9 ∨ month = 11 then 30 else 31

def day? (cs : List Char) : Option (List Char) := do
  let year ← number? 10 (cs.take 4)
  let '-' :: rest := cs.drop 4 | none
  let month ← number? 10 (rest.take 2)
  let '-' :: rest ← twoDigits? 1 12 rest | none
  twoDigits? 1 (daysIn year month) rest

def isDate (cs : List Char) : Bool :=
  time? cs == some [] ||
    match day? cs with
    | some [] => true
    | some (c :: rest) =>
      (c == 'T' || c == 't' || c == ' ') && ((time? rest).bind offset?) == some []
    | none => false

def isWordChar (c : Char) : Bool :=
  c.isAlphanum || c == '+' || c == '-' || c == '.' || c == '_' || c == ':'

/-- The word at the front of a text.  A date and a time may have one blank between them. -/
def word (cs : List Char) : List Char × List Char :=
  let first := cs.takeWhile isWordChar
  let rest := cs.dropWhile isWordChar
  match rest with
  | ' ' :: c :: more =>
    if day? first == some [] && c.isDigit then
      (first ++ ' ' :: (c :: more).takeWhile isWordChar, (c :: more).dropWhile isWordChar)
    else (first, rest)
  | _ => (first, rest)

def wordValue? (cs : List Char) : Option Value :=
  if cs = "true".toList then some (.boolean true)
  else if cs = "false".toList then some (.boolean false)
  else match integer? cs with
    | some n => some (.integer n)
    | none => if isFloat cs then some .float else if isDate cs then some .date else none

mutual

def value? : (fuel : Nat) → List Char → Option (Value × List Char)
  | 0, _ => none
  | _ + 1, [] => none
  | fuel + 1, c :: rest =>
    if c = '"' ∨ c = '\'' then (quoted? c rest).map fun (s, rest) => (.text s, rest)
    else if c = '[' then do
      let (items, rest) ← items? fuel (← skipFiller? false rest)
      return (.array items, rest)
    else if c = '\x7b' then do
      let (entries, rest) ← pairs? fuel [] (← skipFiller? false rest)
      return (.table .inline entries, rest)
    else
      let (chars, rest) := word (c :: rest)
      (wordValue? chars).map (·, rest)

def items? : (fuel : Nat) → List Char → Option (List Value × List Char)
  | 0, _ => none
  | _ + 1, ']' :: rest => some ([], rest)
  | fuel + 1, cs => do
    let (item, rest) ← value? fuel cs
    match ← skipFiller? false rest with
    | ',' :: rest =>
      let (items, rest) ← items? fuel (← skipFiller? false rest)
      return (item :: items, rest)
    | ']' :: rest => return ([item], rest)
    | _ => none

def pairs? : (fuel : Nat) → Entries → List Char → Option (Entries × List Char)
  | 0, _, _ => none
  | _ + 1, entries, '\x7d' :: rest => some (entries, rest)
  | fuel + 1, entries, cs => do
    let (path, rest) ← keyPath? fuel cs
    let ('=' :: rest) := rest | none
    let (value, rest) ← value? fuel (skipBlanks rest)
    let entries ← assign value path entries
    match ← skipFiller? false rest with
    | ',' :: rest => pairs? fuel entries (← skipFiller? false rest)
    | '\x7d' :: rest => return (entries, rest)
    | _ => none

end

/-- The statements of a text.  `current` is the header that is in force. -/
def statements? : (fuel : Nat) → (current : List String) → Entries → List Char → Option Entries
  | 0, _, _, _ => none
  | fuel + 1, current, entries, cs => do
    match ← skipFiller? false cs with
    | [] => return entries
    | '[' :: '[' :: rest =>
      let (path, rest) ← keyPath? fuel rest
      let (']' :: ']' :: rest) := rest | none
      let entries ← under (openElement (path.getLast?.getD "")) path.dropLast entries
      statements? fuel path entries (← lineEnd? rest)
    | '[' :: rest =>
      let (path, rest) ← keyPath? fuel rest
      let (']' :: rest) := rest | none
      let entries ← under (openTable (path.getLast?.getD "")) path.dropLast entries
      statements? fuel path entries (← lineEnd? rest)
    | cs =>
      let (path, rest) ← keyPath? fuel cs
      let ('=' :: rest) := rest | none
      let (value, rest) ← value? fuel (skipBlanks rest)
      let entries ← under (assign value path) current entries
      statements? fuel current entries (← lineEnd? rest)

/-- The table that a text spells.  A byte order mark at its front is no part of it. -/
def read? (s : String) : Option Entries :=
  let cs := match s.toList with
    | '\uFEFF' :: rest => rest
    | cs => cs
  statements? (cs.length + 2) [] [] cs

end ToolTrial.Toml
