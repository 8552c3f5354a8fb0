import ToolTrial.Proofs.Shortest
import ToolTrial.Proofs.Token

/-!
A finite float is the float nearest to its text.  However the digits are laid out, the parts of the
literal make up the decimal that was written, except that zeros which pad it become digits; and the
shortest decimal of a float is nearest to that float.  Documents are not read this way: what the
text of a float is read as there need not be that float.
-/

set_option autoImplicit false
set_option relaxedAutoImplicit false

namespace ToolTrial

namespace Number.Layout

/-- A text that, with either sign in front of it, is a literal of the same float as a decimal. -/
def Spells (text : List Char) (d : Decimal) : Prop :=
  ∀ negative, ∃ l, literal? ((if negative then ['-'] else []) ++ text) = some l ∧
    l.isExact = false ∧ l.decimal.toFloat l.negative = d.toFloat negative

section Decimals

variable {whole fraction tail rest : List Char} {d : Decimal} {exponent : Option Int}

private theorem spells_of_parts (integral : AreWhole whole) (ends : EndsDigits tail)
    (fractional : fraction? tail = some (fraction, rest)) (last : exponent? rest = some exponent)
    (inexact : fraction ≠ [] ∨ exponent ≠ none) (digits : ofDigits (whole ++ fraction) = d.digits)
    (scale : exponent.getD 0 - fraction.length = d.exponent) : Spells (whole ++ tail) d := by
  intro negative
  refine ⟨_, literal?_append negative integral ends fractional last, ?_, ?_⟩
  · rcases inexact with some_digit | some_exponent
    · simp [Literal.isExact, some_digit]
    · simp [Literal.isExact, Option.isSome_iff_ne_none.mpr some_exponent]
  · rw [Literal.decimal, digits, scale]

private theorem point_fraction {digits : List Char} (h : AreDigits digits) :
    fraction? ('.' :: digits) = some (digits, []) := by
  simpa using fraction?_point h endsDigits_nil

private theorem digits_spec (nonzero : d.digits ≠ 0) :
    ∃ digits, Nat.toDigits 10 d.digits = digits ∧ AreDigits digits ∧ digits.head? ≠ some '0' ∧
      ofDigits digits = d.digits ∧ d.places = digits.length + d.exponent :=
  ⟨_, rfl, areDigits_toDigits _, fun front => nonzero (eq_zero_of_head?_toDigits front),
    ofDigits_toDigits _, rfl⟩

private theorem head?_take {digits : List Char} (front : digits.head? ≠ some '0') {k : Nat}
    (some_digit : k ≠ 0) : (digits.take k).head? ≠ some '0' := by
  rwa [List.head?_take, if_neg some_digit]

variable {layout : Layout}

private theorem spells_positionally (point : layout.pointZero = true) (nonzero : d.digits ≠ 0) :
    Spells (layout.positionally (Nat.toDigits 10 d.digits) d.places) d := by
  obtain ⟨digits, written, areDigits, front, value, places⟩ := digits_spec nonzero
  have zeros_digits (k : Nat) : ∀ c ∈ zeros k, c.isDigit = true := by
    intro c inside
    rw [List.eq_of_mem_replicate inside]
    rfl
  have pointEnds (rest : List Char) : EndsDigits ('.' :: rest) := endsDigits_cons (by decide) rest
  rw [written, positionally]
  split_ifs with small reached
  · -- all digits stand after the point, behind the zeros that bring them there
    have zero : AreWhole ['0'] := ⟨⟨by simp, by simp⟩, Or.inl rfl⟩
    have padded : AreDigits (zeros (-d.places).toNat ++ digits) := by
      refine ⟨List.append_ne_nil_of_right_ne_nil _ areDigits.some_digit, ?_⟩
      rw [List.forall_mem_append]
      exact ⟨zeros_digits _, areDigits.each⟩
    show Spells (['0'] ++ '.' :: (zeros (-d.places).toNat ++ digits)) d
    refine spells_of_parts zero (pointEnds _) (point_fraction padded) rfl (.inl padded.some_digit)
      ?_ ?_
    · rw [← value, List.cons_append, List.nil_append]
      exact ofDigits_zeros_append ((-d.places).toNat + 1) digits
    · simp only [zeros, List.length_append, List.length_replicate, Option.getD_none]
      omega
  · -- the zeros up to the point, and the one after it, are read as digits
    intro negative
    generalize amount : d.places.toNat - digits.length = k
    have integral : AreWhole (digits ++ zeros k) := by
      refine ⟨areDigits.append (zeros_digits k), Or.inr ?_⟩
      obtain ⟨c, cs, rfl⟩ := List.exists_cons_of_ne_nil areDigits.some_digit
      exact front
    have fractional : fraction? ['.', '0'] = some (['0'], []) :=
      point_fraction ⟨by simp, by simp⟩
    have parts := literal?_append negative integral (pointEnds ['0']) fractional rfl
    have read : ofDigits (digits ++ zeros k ++ ['0']) = d.digits * 10 ^ (k + 1) := by
      rw [List.append_assoc, ← value]
      show ofDigits (digits ++ (List.replicate k '0' ++ List.replicate 1 '0')) = _
      rw [List.replicate_append_replicate, ofDigits_append_zeros]
    have scale : (0 : Int) - (['0'] : List Char).length + (k + 1 : Nat) = d.exponent := by
      simp only [List.length_singleton]
      omega
    refine ⟨_, parts, rfl, ?_⟩
    rw [Literal.decimal, read, Option.getD_none, Decimal.toFloat_mul_pow negative nonzero, scale]
  · -- the point stands between two digits
    have integral : AreWhole (digits.take d.places.toNat) := by
      refine ⟨⟨?_, fun c inside => areDigits.each c (List.mem_of_mem_take inside)⟩,
        Or.inr (head?_take front (by omega))⟩
      exact List.ne_nil_of_length_pos (by rw [List.length_take]; omega)
    have after : AreDigits (digits.drop d.places.toNat) := by
      refine ⟨?_, fun c inside => areDigits.each c (List.mem_of_mem_drop inside)⟩
      exact List.ne_nil_of_length_pos (by rw [List.length_drop]; omega)
    refine spells_of_parts integral (pointEnds _) (point_fraction after) rfl (.inl after.some_digit)
      ?_ ?_
    · rw [List.take_append_drop, value]
    · rw [List.length_drop, Option.getD_none]
      omega

private theorem spells_scientifically (nonzero : d.digits ≠ 0) :
    Spells (scientifically (Nat.toDigits 10 d.digits) (d.places - 1)) d := by
  obtain ⟨digits, written, areDigits, front, value, places⟩ := digits_spec nonzero
  rw [written, scientifically]
  generalize exponent : d.places - 1 = n
  have markEnds (rest : List Char) : EndsDigits ('e' :: rest) := endsDigits_cons (by decide) rest
  obtain ⟨c, others, rfl⟩ := List.exists_cons_of_ne_nil areDigits.some_digit
  rw [List.length_cons] at places
  have integral : AreWhole [c] := by
    refine ⟨⟨by simp, ?_⟩, Or.inl rfl⟩
    rw [List.forall_mem_singleton]
    exact areDigits.each c List.mem_cons_self
  cases others with
  | nil =>
    refine spells_of_parts integral (markEnds _) rfl (exponent?_mark n) (.inr (by simp)) value ?_
    simp only [List.length_nil, Option.getD_some] at places ⊢
    omega
  | cons c' others =>
    have after : AreDigits (c' :: others) :=
      ⟨by simp, fun c inside => areDigits.each c (List.mem_cons_of_mem _ inside)⟩
    show Spells ([c] ++ '.' :: (c' :: others ++ 'e' :: _)) d
    refine spells_of_parts integral (endsDigits_cons (by decide) _)
      (fraction?_point after (markEnds _)) (exponent?_mark n) (.inr (by simp)) value ?_
    rw [Option.getD_some]
    omega

theorem spells_decimal (point : layout.pointZero = true) (nonzero : d.digits ≠ 0) :
    Spells (layout.decimal d) d := by
  rw [decimal]
  split
  · exact spells_positionally point nonzero
  · exact spells_scientifically nonzero

end Decimals

section Floats

variable {x : Float}

theorem literal?_finite {layout : Layout} (point : layout.pointZero = true)
    (finite : x.isFinite = true) :
    ∃ l, literal? (layout.finite x) = some l ∧ l.isExact = false ∧ l.nearest? = some x := by
  suffices read : ∃ l, literal? (layout.finite x) = some l ∧ l.isExact = false ∧
      l.decimal.toFloat l.negative = x by
    obtain ⟨l, literal, inexact, reads⟩ := read
    refine ⟨l, literal, inexact, ?_⟩
    rw [Literal.nearest?, reads, Option.filter_some, if_pos finite]
  rw [Layout.finite]
  split
  · rename_i none
    have zero : AreWhole ['0'] := ⟨⟨by simp, by simp⟩, Or.inl rfl⟩
    have fractional : fraction? ['.', '0'] = some (['0'], []) :=
      point_fraction ⟨by simp, by simp⟩
    have parts := literal?_append (isNegative x) zero (endsDigits_cons (by decide) _) fractional rfl
    have noQuotient : 0 * (magnitude x).den = (magnitude x).num * 1 := by
      rw [Magnitude.num, none, Nat.zero_mul, Nat.zero_mul, Nat.zero_mul]
    have least : (⟨0, -1⟩ : Decimal).toFloat (isNegative x) = nearest (isNegative x) 0 1 :=
      if_pos (Or.inl rfl)
    exact ⟨_, parts, rfl, least.trans
      (nearest_isNegative (quotientBits_magnitude finite Nat.one_pos noQuotient))⟩
  · rename_i some
    obtain ⟨digits, reads⟩ := Decimal.toFloat_shortest layout.tie finite some
    obtain ⟨l, literal, inexact, same⟩ := spells_decimal point digits (isNegative x)
    exact ⟨l, literal, inexact, same.trans reads⟩

end Floats

section Characters

private def Numeral (text : List Char) : Prop :=
  ∀ c ∈ text, c ∈ ['-', '+', '.', 'e'] ∨ c.isDigit = true

private theorem numeral_append {text others : List Char} :
    Numeral (text ++ others) ↔ Numeral text ∧ Numeral others :=
  List.forall_mem_append

private theorem numeral_cons {c : Char} {text : List Char} :
    Numeral (c :: text) ↔ (c ∈ ['-', '+', '.', 'e'] ∨ c.isDigit = true) ∧ Numeral text :=
  List.forall_mem_cons

private theorem numeral_of_digits {digits : List Char} (each : ∀ c ∈ digits, c.isDigit = true) :
    Numeral digits :=
  fun c inside => Or.inr (each c inside)

private theorem numeral_zeros (k : Nat) : Numeral (zeros k) := by
  apply numeral_of_digits
  intro c inside
  rw [List.eq_of_mem_replicate inside]
  rfl

private theorem numeral_toDigits (n : Nat) : Numeral (Nat.toDigits 10 n) :=
  numeral_of_digits (areDigits_toDigits n).each

private theorem numeral_decimal (layout : Layout) (d : Decimal) : Numeral (layout.decimal d) := by
  have digits := numeral_toDigits d.digits
  have first (k : Nat) : Numeral ((Nat.toDigits 10 d.digits).take k) :=
    fun c inside => digits c (List.mem_of_mem_take inside)
  have others (k : Nat) : Numeral ((Nat.toDigits 10 d.digits).drop k) :=
    fun c inside => digits c (List.mem_of_mem_drop inside)
  have none : Numeral [] := by simp [Numeral]
  rw [decimal]
  split
  · rw [positionally]
    split_ifs
    all_goals simp only [numeral_append, numeral_cons]
    · exact ⟨by decide, by decide, numeral_zeros _, digits⟩
    · exact ⟨⟨digits, numeral_zeros _⟩, by decide, by decide, none⟩
    · exact ⟨⟨digits, numeral_zeros _⟩, none⟩
    · exact ⟨first _, by decide, others _⟩
  · rw [scientifically]
    simp only [numeral_append, numeral_cons]
    refine ⟨⟨first 1, ?_⟩, by decide, ?_, numeral_toDigits _⟩
    · split_ifs
      · exact none
      · exact numeral_cons.mpr ⟨by decide, others 1⟩
    · split_ifs <;> decide

theorem mem_finite {layout : Layout} {x : Float} {c : Char} (inside : c ∈ layout.finite x) :
    c ∈ ['-', '+', '.', 'e'] ∨ c.isDigit = true := by
  suffices numeral : Numeral (layout.finite x) from numeral c inside
  have sign : Numeral (if isNegative x then ['-'] else []) := by
    split_ifs <;> simp [Numeral]
  rw [Layout.finite]
  split
  · refine numeral_append.mpr ⟨sign, numeral_cons.mpr ⟨by decide, ?_⟩⟩
    split_ifs <;> simp [Numeral]
  · exact numeral_append.mpr ⟨sign, numeral_decimal _ _⟩

end Characters
end Number.Layout

namespace Json

open Number

variable {x y : Float}

/-- The text of a finite float is a literal that is not exact, and the float is nearest to it. -/
theorem literal?_floatText (finite : x.isFinite = true) :
    ∃ l, literal? (floatText x) = some l ∧ l.isExact = false ∧ l.nearest? = some x := by
  have written : floatText x = numbers.finite x := if_pos finite
  rw [written]
  exact Layout.literal?_finite rfl finite

theorem isWord_floatText (finite : x.isFinite = true) : IsWord (floatText x) := by
  refine ⟨?_, fun c inside => ?_⟩
  · intro nothing
    obtain ⟨l, literal, -⟩ := literal?_floatText finite
    rw [nothing] at literal
    cases literal
  · have written : floatText x = numbers.finite x := if_pos finite
    rw [written] at inside
    rcases Layout.mem_finite inside with mark | digit
    · have marks : ∀ c ∈ ['-', '+', '.', 'e'], isWordChar c = true :=
        List.all_eq_true.mp (by decide +kernel)
      exact marks c mark
    · exact isWordChar_of_isDigit digit

/-- What the text of a float is read as in a document; nothing when the digits that are read make up
too large a number. -/
def reread? (x : Float) : Option Float := (literal? (floatText x)).bind Literal.float?

/-- What is read in the place of a float, or the float itself where nothing is. -/
def reread (x : Float) : Float := (reread? x).getD x

theorem reread?_eq_some_reread {x : Float} (read : (reread? x).isSome = true) :
    reread? x = some (reread x) := by
  obtain ⟨y, given⟩ := Option.isSome_iff_exists.mp read
  rw [reread, given, Option.getD_some]

def GivenBack (x : Float) : Prop := reread? x = some x

instance (x : Float) : Decidable (GivenBack x) :=
  inferInstanceAs (Decidable (reread? x = some x))

theorem value?_of_not_isExact {l : Literal} (inexact : l.isExact = false) :
    l.value? = l.float?.map .float := by
  rw [Literal.value?, inexact]
  rfl

theorem word?_floatText (finite : x.isFinite = true) :
    word? (floatText x) = (reread? x).map .float := by
  obtain ⟨l, literal, inexact, -⟩ := literal?_floatText finite
  rw [word?_of_literal? literal, value?_of_not_isExact inexact, reread?, literal, Option.bind_some,
    Option.map_map]
  rfl

/-- Only what is finite is read from a text, and written as one that can be read. -/
theorem isFinite_of_reread? (read : reread? x = some y) :
    x.isFinite = true ∧ y.isFinite = true := by
  obtain ⟨l, literal, read⟩ := Option.bind_eq_some_iff.mp read
  refine ⟨?_, (Option.filter_eq_some_iff.mp read).2⟩
  by_contra infinite
  rw [floatText, if_neg infinite] at literal
  cases literal

end Json
end ToolTrial
