import Mathlib.Algebra.GroupWithZero.Nat
import Mathlib.Data.List.TakeWhile
import ToolTrial.Number.Literal

/-!
What the parts of a number literal are read as.  Digits are read up to the character that is not
one, so a literal that is put together from a sign, a whole part, a fraction and an exponent falls
into these parts again.
-/

set_option autoImplicit false
set_option relaxedAutoImplicit false

namespace ToolTrial.Number

section Digits

def EndsDigits (rest : List Char) : Prop := ∀ c ∈ rest.head?, c.isDigit = false

theorem endsDigits_nil : EndsDigits [] := by
  intro c front
  cases front

theorem endsDigits_cons {c : Char} (apart : c.isDigit = false) (rest : List Char) :
    EndsDigits (c :: rest) := by
  intro d front
  obtain rfl : c = d := by simpa using front
  exact apart

structure AreDigits (digits : List Char) : Prop where
  some_digit : digits ≠ []
  each : ∀ c ∈ digits, c.isDigit = true

theorem AreDigits.append {digits others : List Char} (h : AreDigits digits)
    (each : ∀ c ∈ others, c.isDigit = true) : AreDigits (digits ++ others) := by
  refine ⟨List.append_ne_nil_of_left_ne_nil h.some_digit _, ?_⟩
  rw [List.forall_mem_append]
  exact ⟨h.each, each⟩

theorem areDigits_toDigits (n : Nat) : AreDigits (Nat.toDigits 10 n) :=
  ⟨Nat.toDigits_ne_nil, fun _ inside => Nat.isDigit_of_mem_toDigits (by decide) (by decide) inside⟩

theorem eq_zero_of_head?_toDigits {n : Nat} (front : (Nat.toDigits 10 n).head? = some '0') :
    n = 0 := by
  induction n using Nat.strongRecOn with
  | ind n ih =>
    rcases Nat.lt_or_ge n 10 with small | large
    · rw [Nat.toDigits_of_lt_base small] at front
      simpa using front
    · rw [Nat.toDigits_of_base_le (by decide) large,
        List.head?_append] at front
      have some_head : (Nat.toDigits 10 (n / 10)).head?.isSome := by
        simp [List.isSome_head?, Nat.toDigits_ne_nil]
      rw [Option.or_of_isSome some_head] at front
      have upper := ih (n / 10) (by omega) front
      omega

theorem ofDigits_toDigits (n : Nat) : ofDigits (Nat.toDigits 10 n) = n :=
  Nat.ofDigitChars_toDigits (by decide) (by decide)

theorem ofDigits_zeros_append (k : Nat) (digits : List Char) :
    ofDigits (List.replicate k '0' ++ digits) = ofDigits digits := by
  show Nat.ofDigitChars 10 _ 0 = Nat.ofDigitChars 10 _ 0
  rw [Nat.ofDigitChars_append, Nat.ofDigitChars_replicate_zero, Nat.mul_zero]

theorem ofDigits_append_zeros (digits : List Char) (k : Nat) :
    ofDigits (digits ++ List.replicate k '0') = ofDigits digits * 10 ^ k := by
  show Nat.ofDigitChars 10 _ 0 = Nat.ofDigitChars 10 _ 0 * _
  rw [Nat.ofDigitChars_append, Nat.ofDigitChars_replicate_zero, Nat.mul_comm]

end Digits

section Parts

variable {digits whole fraction tail rest : List Char} {exponent : Option Int}

theorem digits?_append (h : AreDigits digits) (ends : EndsDigits rest) :
    digits? (digits ++ rest) = some (digits, rest) := by
  have stop : rest.takeWhile Char.isDigit = [] ∧ rest.dropWhile Char.isDigit = rest := by
    cases rest with
    | nil => exact ⟨rfl, rfl⟩
    | cons c rest => simp [ends c rfl]
  simp [digits?, List.takeWhile_append_of_pos h.each, List.dropWhile_append_of_pos h.each, stop,
    h.some_digit]

structure AreWhole (digits : List Char) : Prop extends AreDigits digits where
  front : digits.length = 1 ∨ digits.head? ≠ some '0'

theorem areWhole_toDigits (n : Nat) : AreWhole (Nat.toDigits 10 n) := by
  refine ⟨areDigits_toDigits n, ?_⟩
  by_cases front : (Nat.toDigits 10 n).head? = some '0'
  · obtain rfl := eq_zero_of_head?_toDigits front
    exact Or.inl rfl
  · exact Or.inr front

theorem whole?_append (h : AreWhole digits) (ends : EndsDigits rest) :
    whole? (digits ++ rest) = some (digits, rest) := by
  rw [whole?, digits?_append h.toAreDigits ends, Option.filter_some, if_pos]
  simpa using h.front

theorem fraction?_point (h : AreDigits digits) (ends : EndsDigits rest) :
    fraction? ('.' :: (digits ++ rest)) = some (digits, rest) :=
  digits?_append h ends

theorem exponent?_mark (n : Int) :
    exponent? ('e' :: (if n < 0 then '-' else '+') :: Nat.toDigits 10 n.natAbs) =
      some (some n) := by
  have read : digits? (Nat.toDigits 10 n.natAbs) = some (Nat.toDigits 10 n.natAbs, []) := by
    simpa using digits?_append (areDigits_toDigits n.natAbs) endsDigits_nil
  rw [exponent?, if_pos (by decide), signedDigits?]
  by_cases negative : n < 0
  · have opposite : -(n.natAbs : Int) = n := by omega
    rw [if_pos negative]
    simp only [List.head?_cons, List.drop_succ_cons, List.drop_zero, read, ofDigits_toDigits,
      beq_self_eq_true, Bool.true_or, if_true, opposite, Option.map_some]
  · have same : (n.natAbs : Int) = n := by omega
    rw [if_neg negative]
    simp only [List.head?_cons, List.drop_succ_cons, List.drop_zero, read, ofDigits_toDigits,
      beq_self_eq_true, Bool.or_true, if_true, same]
    rfl

/-- A literal falls into its parts. -/
theorem literal?_append (negative : Bool) (integral : AreWhole whole) (ends : EndsDigits tail)
    (fractional : fraction? tail = some (fraction, rest)) (scale : exponent? rest = some exponent) :
    literal? ((if negative then ['-'] else []) ++ (whole ++ tail)) =
      some ⟨negative, whole, fraction, exponent⟩ := by
  have noSign : (whole ++ tail).head? ≠ some '-' := by
    obtain ⟨c, cs, rfl⟩ := List.exists_cons_of_ne_nil integral.some_digit
    intro front
    obtain rfl : c = '-' := by simpa using front
    exact absurd (integral.each '-' List.mem_cons_self) (by decide)
  have front : (((if negative then ['-'] else []) ++ (whole ++ tail)).head? == some '-') =
      negative := by
    cases negative with
    | true => rfl
    | false => simpa using noSign
  have unsigned : (if negative then ((if negative then ['-'] else []) ++ (whole ++ tail)).drop 1
      else (if negative then ['-'] else []) ++ (whole ++ tail)) = whole ++ tail := by
    cases negative <;> rfl
  rw [literal?, front]
  dsimp only
  rw [unsigned, whole?_append integral ends, Option.bind_eq_bind, Option.bind_some]
  dsimp only
  rw [fractional, Option.bind_eq_bind, Option.bind_some]
  dsimp only
  rw [scale]
  rfl

end Parts
end ToolTrial.Number
