import ToolTrial.Number.Decimal

/-!
Number literals: an optional minus, a whole part without needless zeros, and optionally a fraction
and an exponent.  A literal can be read as the float nearest to it.  In documents it is read in a
faster way, which may miss that float by a little: the digits that fit 64 bits become a float, and
this is multiplied or divided by a power of ten.  There a literal without fraction and exponent that
fits 64 bits, signed or not, is an integer.
-/

set_option autoImplicit false
set_option relaxedAutoImplicit false

namespace ToolTrial.Number

/-- The parts of a literal.  Without a point the fraction has no digits. -/
structure Literal where
  negative : Bool
  whole : List Char
  fraction : List Char
  exponent : Option Int
deriving DecidableEq, Repr

inductive Value
  | integer (n : Int)
  | float (x : Float)

def ofDigits (digits : List Char) : Nat :=
  digits.foldl (fun value c => 10 * value + (c.toNat - '0'.toNat)) 0

def digits? (cs : List Char) : Option (List Char × List Char) :=
  let digits := cs.takeWhile Char.isDigit
  if digits.isEmpty then none else some (digits, cs.dropWhile Char.isDigit)

/-- A whole part is a single zero or starts with another digit. -/
def whole? (cs : List Char) : Option (List Char × List Char) :=
  (digits? cs).filter fun (digits, _) => digits.length == 1 || digits.head? != some '0'

def fraction? : List Char → Option (List Char × List Char)
  | '.' :: rest => digits? rest
  | rest => some ([], rest)

/-- The value of an exponent after its mark: a sign, if any, and digits to the end. -/
def signedDigits? (cs : List Char) : Option Int :=
  let negative := cs.head? == some '-'
  let unsigned := if negative || cs.head? == some '+' then cs.drop 1 else cs
  match digits? unsigned with
  | some (digits, []) => some (if negative then -(ofDigits digits : Int) else ofDigits digits)
  | _ => none

def exponent? : List Char → Option (Option Int)
  | [] => some none
  | c :: rest => if c == 'e' || c == 'E' then (signedDigits? rest).map some else none

/-- The parts of a text that is a literal from end to end. -/
def literal? (cs : List Char) : Option Literal := do
  let negative := cs.head? == some '-'
  let (whole, afterWhole) ← whole? (if negative then cs.drop 1 else cs)
  let (fraction, afterFraction) ← fraction? afterWhole
  let exponent ← exponent? afterFraction
  return ⟨negative, whole, fraction, exponent⟩

/-- The greatest power of ten that a float comes near to. -/
def greatestPower : Nat := 308

/-- A power of ten in floating point. -/
def power (k : Nat) : Float := ofNat (Nat.pow 10 k)

/-- `x * 10 ^ exponent` in floating point, by one multiplication or division; none for an exponent
that is too large.  Below the least power a number other than zero is first divided by the greatest
one. -/
def scaled? (x : Float) (exponent : Int) : Option Float :=
  if exponent.natAbs ≤ greatestPower then
    some (if 0 ≤ exponent then x * power exponent.toNat else x / power (-exponent).toNat)
  else if x == 0.0 then some x
  else if 0 ≤ exponent then none
  else scaled? (x / power greatestPower) (exponent + greatestPower)
termination_by exponent.natAbs
decreasing_by
  unfold greatestPower at *
  omega

/-- Digits are appended to a number as long as it fits 64 bits; the digits from the first one on
that does not are left over. -/
def appendDigits (n : Nat) : List Char → Nat × List Char
  | [] => (n, [])
  | c :: cs =>
    let next := 10 * n + (c.toNat - '0'.toNat)
    if next < UInt64.size then appendDigits next cs else (n, c :: cs)

def leastInteger : Int := -9223372036854775808

def greatestInteger : Int := 18446744073709551615

namespace Literal

/-- The decimal that a literal spells, its sign apart. -/
def decimal (l : Literal) : Decimal :=
  ⟨ofDigits (l.whole ++ l.fraction), l.exponent.getD 0 - l.fraction.length⟩

def isExact (l : Literal) : Bool := l.fraction.isEmpty && l.exponent.isNone

/-- The float nearest to a literal, unless it is too large for that format. -/
def nearest? (l : Literal) : Option Float :=
  (some (l.decimal.toFloat l.negative)).filter Float.isFinite

/-- The decimal that is read off a literal.  Digits of the whole part that do not fit count as
zeros, those of the fraction not at all. -/
def kept (l : Literal) : Decimal :=
  let (whole, zeros) := appendDigits 0 l.whole
  let (digits, rest) := appendDigits whole l.fraction
  ⟨digits, l.exponent.getD 0 + zeros.length - (l.fraction.length - rest.length : Nat)⟩

/-- The float that a literal is read as, unless that is too large for its format. -/
def float? (l : Literal) : Option Float :=
  ((scaled? (ofNat l.kept.digits) l.kept.exponent).map fun x =>
    if l.negative then -x else x).filter Float.isFinite

def value? (l : Literal) : Option Value :=
  let n : Int := if l.negative then -(l.decimal.digits : Int) else l.decimal.digits
  let minusZero := l.negative && l.decimal.digits == 0
  if l.isExact && !minusZero && leastInteger ≤ n && n ≤ greatestInteger then some (.integer n)
  else l.float?.map .float

end Literal
end ToolTrial.Number
