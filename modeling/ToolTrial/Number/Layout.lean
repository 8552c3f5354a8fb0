import ToolTrial.Number.Decimal

/-!
How numbers are written.  `render` lays out the shortest digits of a float as a `Layout` says,
`fixed` writes a float with a set number of places.
-/

set_option autoImplicit false
set_option relaxedAutoImplicit false

namespace ToolTrial.Number

/-- The decisions of a float format that writes the fewest digits. -/
structure Layout where
  /-- Leading digits with these decimal exponents are written positionally, the rest in
  scientific form. -/
  positional : Int → Bool
  /-- Whole values end in `.0` when written positionally. -/
  pointZero : Bool
  /-- Which of two equally near digit sequences is written. -/
  tie : Tie

namespace Layout

def zeros (n : Nat) : List Char := List.replicate n '0'

/-- Digits with a point after the first `places` of them, padded with zeros where they do not
reach. -/
def positionally (layout : Layout) (digits : List Char) (places : Int) : List Char :=
  if places ≤ 0 then '0' :: '.' :: (zeros (-places).toNat ++ digits)
  else if digits.length ≤ places.toNat then
    digits ++ zeros (places.toNat - digits.length) ++ (if layout.pointZero then ['.', '0'] else [])
  else digits.take places.toNat ++ '.' :: digits.drop places.toNat

/-- Digits with a point after the first one, and the exponent of that one. -/
def scientifically (digits : List Char) (exponent : Int) : List Char :=
  let head := digits.take 1
  let tail := digits.drop 1
  head ++ (if tail.isEmpty then [] else '.' :: tail) ++
    'e' :: (if exponent < 0 then '-' else '+') :: Nat.toDigits 10 exponent.natAbs

def decimal (layout : Layout) (d : Decimal) : List Char :=
  let digits := Nat.toDigits 10 d.digits
  if layout.positional (d.places - 1) then layout.positionally digits d.places
  else scientifically digits (d.places - 1)

def finite (layout : Layout) (x : Float) : List Char :=
  let sign := if isNegative x then ['-'] else []
  let m := magnitude x
  if m.mantissa = 0 then sign ++ '0' :: (if layout.pointZero then ['.', '0'] else [])
  else sign ++ layout.decimal (Decimal.shortest layout.tie x)

end Layout

def unbounded (x : Float) : String :=
  if x.isNaN then "NaN" else if isNegative x then "-inf" else "inf"

def render (layout : Layout) (x : Float) : String :=
  if x.isFinite then String.ofList (layout.finite x) else unbounded x

/-- Numbers in messages are written without an exponent, and whole ones without a point. -/
def plain : Layout where
  positional := fun _ => true
  pointZero := false
  tie := .up

/-- A natural number of units of `10 ^ -places`, with a point before the last `places` digits. -/
def pointed (places units : Nat) : List Char :=
  let digits := Nat.toDigits 10 units
  let padded := Layout.zeros (places + 1 - digits.length) ++ digits
  padded.take (padded.length - places) ++ '.' :: padded.drop (padded.length - places)

/-- A float with `places` digits after the point: of its exact value, a half going to the even
digit. -/
def fixed (places : Nat) (x : Float) : String :=
  if x.isFinite then
    let m := magnitude x
    let units := roundDiv .toEven (m.num * Nat.pow 10 places) m.den
    String.ofList ((if isNegative x then ['-'] else []) ++ pointed places units)
  else unbounded x

end ToolTrial.Number
