import ToolTrial.Json.Token
import ToolTrial.Json.Writer
import ToolTrial.Proofs.Literal

/-!
Written scalars are read as themselves: the characters of a text through their escapes, the digits
of an integer through its literal.  Blanks between tokens leave no trace.
-/

set_option autoImplicit false
set_option relaxedAutoImplicit false

namespace ToolTrial.Json

section Texts

private theorem unit?_hexDigits {n : Nat} (control : n < 0x20) :
    unit? '0' '0' (hexDigit (n / 16)) (hexDigit (n % 16)) = some n := by
  have every : ∀ n < 0x20, unit? '0' '0' (hexDigit (n / 16)) (hexDigit (n % 16)) = some n := by
    decide +kernel
  exact every n control

theorem character?_escape (c : Char) (rest : List Char) :
    character? (escape c ++ rest) = some (c, rest) := by
  unfold escape
  split_ifs with quote backslash newline return' tab backspace feed control
  · subst quote
    rfl
  · subst backslash
    rfl
  · subst newline
    rfl
  · subst return'
    rfl
  · subst tab
    rfl
  · subst backspace
    rfl
  · subst feed
    rfl
  · have single : single? c.toNat = some c := by
      rw [single?, if_neg (by omega), Char.ofNat_toNat]
    simp only [List.cons_append, List.nil_append]
    rw [character?, unit?_hexDigits control]
    simp only [Option.bind_eq_bind, Option.bind_some, single]
  · simp only [List.cons_append, List.nil_append]
    rw [character?, if_neg control]
    · intro _ _ _ _ _ isBackslash
      exact absurd isBackslash backslash
    · intro _ _ isBackslash
      exact absurd isBackslash backslash

private theorem head?_escape_append (c : Char) (rest : List Char) :
    (escape c ++ rest).head? ≠ some '"' := by
  unfold escape
  split_ifs with quote
  all_goals simp only [List.cons_append, List.head?_cons, ne_eq, Option.some.injEq]
  all_goals first | exact quote | decide

private theorem inside?_of_character? {cs rest : List Char} {c : Char}
    (open_ : cs.head? ≠ some '"') (read : character? cs = some (c, rest)) :
    inside? cs = (inside? rest).map fun (chars, after) => (c :: chars, after) := by
  rw [inside?]
  · split
    · rename_i none_read
      simp [read] at none_read
    · rename_i c' rest' read'
      obtain ⟨rfl, rfl⟩ : c = c' ∧ rest = rest' := by simpa [read] using read'
      rfl
  · rintro after rfl
    exact open_ rfl

theorem inside?_flatMap_escape (chars rest : List Char) :
    inside? (chars.flatMap escape ++ '"' :: rest) = some (chars, rest) := by
  induction chars with
  | nil => rw [List.flatMap_nil, List.nil_append, inside?]
  | cons c chars ih =>
    rw [List.flatMap_cons, List.append_assoc,
      inside?_of_character? (head?_escape_append c _) (character?_escape c _), ih]
    rfl

end Texts

section Lexemes

theorem lexemes?_cons_of_lexeme? {c : Char} {cs rest : List Char} {l : Lexeme}
    (solid : isSpace c = false) (cut : lexeme? c cs = some (l, rest)) :
    lexemes? (c :: cs) = (lexemes? rest).map (l :: ·) := by
  rw [lexemes?, if_neg (by simp [solid])]
  split
  · rename_i none_cut
    simp [cut] at none_cut
  · rename_i l' rest' cut'
    obtain ⟨rfl, rfl⟩ : l = l' ∧ rest = rest' := by simpa [cut] using cut'
    rfl

theorem lexemes?_newline (depth : Nat) (rest : List Char) :
    lexemes? (newline depth ++ rest) = lexemes? rest := by
  have blanks (n : Nat) : lexemes? (List.replicate n ' ' ++ rest) = lexemes? rest := by
    induction n with
    | zero => rfl
    | succ n ih =>
      rw [List.replicate_succ, List.cons_append, lexemes?, if_pos (by decide), ih]
  rw [newline, List.cons_append, lexemes?, if_pos (by decide), blanks]

theorem lexemes?_space (rest : List Char) : lexemes? (' ' :: rest) = lexemes? rest := by
  rw [lexemes?, if_pos (by decide)]

theorem lexemes?_mark {c : Char} {t : Token} (mark : mark? c = some t) (solid : isSpace c = false)
    (rest : List Char) : lexemes? (c :: rest) = (lexemes? rest).map (.mark t :: ·) := by
  apply lexemes?_cons_of_lexeme? solid
  rw [lexeme?, mark]

theorem lexemes?_quoted (s : String) (rest : List Char) :
    lexemes? (quoted s ++ rest) = (lexemes? rest).map (.text s :: ·) := by
  have solid : isSpace '"' = false := by decide
  rw [quoted, List.cons_append, List.append_assoc]
  apply lexemes?_cons_of_lexeme? solid
  have noMark : mark? '"' = none := by decide
  rw [lexeme?, noMark, List.cons_append, List.nil_append, inside?_flatMap_escape]
  simp

def EndsWord (rest : List Char) : Prop := ∀ c ∈ rest.head?, isWordChar c = false

structure IsWord (text : List Char) : Prop where
  some_char : text ≠ []
  in_word : ∀ c ∈ text, isWordChar c = true

theorem lexemes?_word {word rest : List Char} (h : IsWord word) (ends : EndsWord rest) :
    lexemes? (word ++ rest) = (lexemes? rest).map (.word word :: ·) := by
  obtain ⟨some_char, in_word⟩ := h
  obtain ⟨c, cs, rfl⟩ := List.exists_cons_of_ne_nil some_char
  have first := in_word c List.mem_cons_self
  simp only [isWordChar, Bool.and_eq_true, Bool.not_eq_true', Option.isNone_iff_eq_none,
    bne_iff_ne] at first
  obtain ⟨⟨solid, noMark⟩, noQuote⟩ := first
  have others : ∀ c ∈ cs, isWordChar c = true := fun c member =>
    in_word c (List.mem_cons_of_mem _ member)
  have stop : rest.takeWhile isWordChar = [] ∧ rest.dropWhile isWordChar = rest := by
    cases rest with
    | nil => simp
    | cons d rest => simp [ends d rfl]
  rw [List.cons_append]
  apply lexemes?_cons_of_lexeme? solid
  rw [lexeme?, noMark]
  simp only [if_neg noQuote, List.takeWhile_append_of_pos others,
    List.dropWhile_append_of_pos others, stop, List.append_nil]

end Lexemes

section Numerals

open Number

private theorem toList_toString (n : Int) :
    (toString n).toList = (if n < 0 then ['-'] else []) ++ Nat.toDigits 10 n.natAbs := by
  cases n with
  | ofNat m =>
    rw [if_neg (by simp)]
    show (toString m).toList = [] ++ Nat.toDigits 10 m
    simp
  | negSucc m =>
    rw [if_pos (Int.negSucc_lt_zero m)]
    show ("-" ++ Nat.repr m.succ).toList = ['-'] ++ Nat.toDigits 10 m.succ
    simp

theorem mem_toString {n : Int} {c : Char} (member : c ∈ (toString n).toList) :
    c = '-' ∨ c.isDigit = true := by
  rw [toList_toString, List.mem_append] at member
  rcases member with sign | digit
  · left
    split at sign <;> simp_all
  · exact Or.inr ((areDigits_toDigits _).each c digit)

private theorem literal?_toString (n : Int) :
    literal? (toString n).toList =
      some ⟨decide (n < 0), Nat.toDigits 10 n.natAbs, [], none⟩ := by
  have parts := literal?_append (decide (n < 0)) (areWhole_toDigits n.natAbs)
    endsDigits_nil rfl rfl
  rw [toList_toString]
  simpa using parts

theorem isWordChar_of_isDigit {c : Char} (digit : c.isDigit = true) :
    isWordChar c = true := by
  have apart (d : Char) (noDigit : d.isDigit = false) : c ≠ d := by
    rintro rfl
    simp [noDigit] at digit
  have solid : isSpace c = false := by
    simp [isSpace, apart ' ' (by decide), apart '\n' (by decide), apart '\r' (by decide),
      apart '\t' (by decide)]
  have noMark : mark? c = none := by
    simp [mark?, apart '[' (by decide), apart ']' (by decide), apart '\x7b' (by decide),
      apart '\x7d' (by decide), apart ',' (by decide), apart ':' (by decide)]
  simp [isWordChar, solid, noMark, apart '"' (by decide)]

theorem isWord_toString (n : Int) : IsWord (toString n).toList := by
  refine ⟨?_, fun c member => ?_⟩
  · rw [toList_toString]
    exact List.append_ne_nil_of_right_ne_nil _ Nat.toDigits_ne_nil
  · rcases mem_toString member with rfl | digit
    · decide
    · exact isWordChar_of_isDigit digit

theorem word?_of_literal? {cs : List Char} {l : Literal} (literal : literal? cs = some l) :
    word? cs = l.value?.map fun
      | .integer n => .integer n
      | .float x => .float x := by
  have apart {word : List Char} (noLiteral : literal? word = none) : cs ≠ word := by
    rintro rfl
    rw [noLiteral] at literal
    cases literal
  rw [word?, if_neg (apart (by decide)), if_neg (apart (by decide)), if_neg (apart (by decide)),
    literal, Option.bind_some]
  cases l.value? with
  | none => rfl
  | some value => cases value <;> rfl

/-- An integer that a value can carry is read from its digits, which are an exact literal. -/
theorem word?_toString {n : Int} (least : leastInteger ≤ n) (greatest : n ≤ greatestInteger) :
    (∃ l, literal? (toString n).toList = some l ∧ l.isExact = true) ∧
      word? (toString n).toList = some (.integer n) := by
  refine ⟨⟨_, literal?_toString n, rfl⟩, ?_⟩
  have value : (⟨decide (n < 0), Nat.toDigits 10 n.natAbs, [], none⟩ : Literal).value? =
      some (.integer n) := by
    have restored : (if n < 0 then -(n.natAbs : Int) else n.natAbs) = n := by
      split <;> omega
    have noMinusZero : 0 ≤ n ∨ n ≠ 0 := by omega
    simp only [Literal.value?, Literal.decimal, List.append_nil, ofDigits_toDigits,
      decide_eq_true_eq, restored]
    rw [if_pos]
    simpa [Literal.isExact, least, greatest] using noMinusZero
  rw [word?_of_literal? (literal?_toString n), value]
  rfl

end Numerals
end ToolTrial.Json
