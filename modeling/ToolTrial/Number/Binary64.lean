import ToolTrial.Number.Rounding

/-!
Binary floating point of 64 bits, seen through exact arithmetic.  A finite value is a sign and a
magnitude `mantissa * 2 ^ exponent`; `nearest` goes the other way and gives the float nearest to a
quotient of natural numbers, a half going to the even mantissa.
-/

set_option autoImplicit false
set_option relaxedAutoImplicit false

namespace ToolTrial.Number

/-- The magnitude `mantissa * 2 ^ exponent` of a finite float. -/
structure Magnitude where
  mantissa : Nat
  exponent : Int
deriving DecidableEq, Repr

/-- The least exponent of two that a float can carry. -/
def leastExponent : Int := -1074

/-- The magnitude that the bits of a finite float stand for, whatever its sign. -/
def Magnitude.ofBits (bits : Nat) : Magnitude :=
  let field : Nat := bits / Nat.pow 2 52 % Nat.pow 2 11
  let fraction : Nat := bits % Nat.pow 2 52
  if field = 0 then ⟨fraction, leastExponent⟩ else ⟨Nat.pow 2 52 + fraction, (field : Int) - 1075⟩

def Magnitude.num (m : Magnitude) : Nat := m.mantissa * Nat.pow 2 m.exponent.toNat

def Magnitude.den (m : Magnitude) : Nat := Nat.pow 2 (-m.exponent).toNat

/-- The sign bit, which zero and infinity carry too. -/
def isNegative (x : Float) : Bool := Nat.pow 2 63 ≤ x.toBits.toNat

def magnitude (x : Float) : Magnitude := .ofBits (x.toBits.toNat % Nat.pow 2 63)

def infinityBits : Nat := 0x7FF0000000000000

/-- The exponent of two at which a positive quotient has a mantissa of 53 bits, or the least one. -/
def scaleOf (num den : Nat) : Int :=
  let low : Int := (num.log2 : Int) - (den.log2 : Int) - 53
  let wide := Nat.pow 2 53 * (den * Nat.pow 2 low.toNat) ≤ num * Nat.pow 2 (-low).toNat
  max leastExponent (if wide then low + 1 else low)

/-- The bits of the magnitude nearest to `num / den`; those of infinity when none is that large. -/
def nearestBits (num den : Nat) : Nat :=
  if num = 0 then 0 else
    let scale := scaleOf num den
    let mantissa :=
      roundDiv .toEven (num * Nat.pow 2 (-scale).toNat) (den * Nat.pow 2 scale.toNat)
    min infinityBits ((scale - leastExponent).toNat * Nat.pow 2 52 + mantissa)

def nearest (negative : Bool) (num den : Nat) : Float :=
  let common := num.gcd den
  let bits := nearestBits (num / common) (den / common)
  Float.ofBits (UInt64.ofNat (if negative then Nat.pow 2 63 + bits else bits))

def ofNat (n : Nat) : Float := nearest false n 1

def ofInt (n : Int) : Float := nearest (n < 0) n.natAbs 1

/-- A float without a fraction: infinities and undefined results have none of either kind. -/
def isWhole (x : Float) : Bool :=
  x.isFinite && (magnitude x).num % (magnitude x).den == 0

end ToolTrial.Number
