/-!
Rounding a quotient of natural numbers to an integer, with the rule for exact halves as a parameter.
-/

set_option autoImplicit false
set_option relaxedAutoImplicit false

namespace ToolTrial.Number

/-- Where a quotient goes that lies halfway between two integers. -/
inductive Tie
  | toEven
  | up
deriving DecidableEq, Repr

/-- The integer nearest to `num / den`. -/
def roundDiv (tie : Tie) (num den : Nat) : Nat :=
  let quotient := num / den
  let remainder := num % den
  if 2 * remainder < den then quotient
  else if den < 2 * remainder then quotient + 1
  else match tie with
    | .up => quotient + 1
    | .toEven => if quotient % 2 == 0 then quotient else quotient + 1

end ToolTrial.Number
