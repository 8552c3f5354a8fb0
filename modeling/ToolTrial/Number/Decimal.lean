import ToolTrial.Number.Binary64

/-!
Decimal numbers `digits * 10 ^ exponent`, the float nearest to one, and the fewest digits that read
back as a given float.
-/

set_option autoImplicit false
set_option relaxedAutoImplicit false

namespace ToolTrial.Number

/-- The non-negative decimal `digits * 10 ^ exponent`. -/
structure Decimal where
  digits : Nat
  exponent : Int
deriving DecidableEq, Repr

namespace Decimal

def num (d : Decimal) : Nat := d.digits * Nat.pow 10 d.exponent.toNat

def den (d : Decimal) : Nat := Nat.pow 10 (-d.exponent).toNat

/-- The number of places before the point in positional notation: zero or less for small values. -/
def places (d : Decimal) : Int := (Nat.toDigits 10 d.digits).length + d.exponent

/-- The float nearest to a decimal with the given sign; far beyond either end of the range of floats
the digits no longer matter. -/
def toFloat (negative : Bool) (d : Decimal) : Float :=
  if d.digits = 0 ∨ d.places < -400 then nearest negative 0 1
  else if 400 < d.places then nearest negative (Nat.pow 10 400) 1
  else nearest negative d.num d.den

def stripZeros (d : Decimal) : Decimal :=
  if h : d.digits ≠ 0 ∧ d.digits % 10 = 0 then stripZeros ⟨d.digits / 10, d.exponent + 1⟩ else d
termination_by d.digits
decreasing_by omega

/-- The least `k` with `num / den < 10 ^ k`, for a positive quotient. -/
def decade (num den : Nat) : Int :=
  let guess : Int := (Nat.toDigits 10 num).length - (Nat.toDigits 10 den).length
  if num * Nat.pow 10 (-guess).toNat < den * Nat.pow 10 guess.toNat then guess else guess + 1

/-- Of the two neighbours of `num / den` on the grid of step `10 ^ step` the nearer one that reads
back, if either does. -/
def onGrid? (tie : Tie) (reads : Decimal → Bool) (num den : Nat) (step : Int) : Option Decimal :=
  let scaledNum := num * Nat.pow 10 (-step).toNat
  let scaledDen := den * Nat.pow 10 step.toNat
  let below : Decimal := ⟨scaledNum / scaledDen, step⟩
  let above : Decimal := ⟨scaledNum / scaledDen + 1, step⟩
  let nearer := if roundDiv tie scaledNum scaledDen = below.digits then below else above
  let farther := if nearer = below then above else below
  if reads nearer then some nearer else if reads farther then some farther else none

def exact (m : Magnitude) : Decimal :=
  ⟨m.mantissa * Nat.pow 2 m.exponent.toNat * Nat.pow 5 (-m.exponent).toNat, min 0 m.exponent⟩

/-- The shortest decimal that reads back as the magnitude of a finite float other than zero: no grid
coarser than the one it lies on has a point that does.  An exact tie between two such points goes by
`tie`. -/
def shortest (tie : Tie) (x : Float) : Decimal :=
  let m := magnitude x
  let reads (d : Decimal) : Bool :=
    (toFloat false d).toBits.toNat == x.toBits.toNat % Nat.pow 2 63
  let top := decade m.num m.den
  let found := (List.range' 1 17).findSome? fun (n : Nat) => onGrid? tie reads m.num m.den (top - n)
  (found.getD (exact m)).stripZeros

end Decimal
end ToolTrial.Number
