import Mathlib.Data.List.Basic
import ToolTrial.Json.Reader
import ToolTrial.Proofs.FloatText

/-!
A saved document is read back, save that floats need not be.  The written form is cut into the
lexemes of the document, whatever its floats are read as; where each of them is read as some float,
the tokens take the machine from the place of a value to the state after it, whatever containers are
open around that place.
-/

set_option autoImplicit false
set_option relaxedAutoImplicit false

namespace ToolTrial.Json

mutual

/-- The tokens of a document. -/
def emit : Json → List Token
  | .array items => .openArray :: (emitItems items ++ [.closeArray])
  | .object members => .openObject :: (emitMembers members ++ [.closeObject])
  | j => [.scalar j]
termination_by structural j => j

def emitItems : List Json → List Token
  | [] => []
  | j :: rest => emit j ++ (if rest.isEmpty then [] else .comma :: emitItems rest)
termination_by structural items => items

def emitMembers : List (String × Json) → List Token
  | [] => []
  | (k, j) :: rest =>
    .scalar (.text k) :: .colon ::
      (emit j ++ (if rest.isEmpty then [] else .comma :: emitMembers rest))
termination_by structural members => members

end

mutual

/-- A document with other floats in the places of its own. -/
def mapFloats (f : Float → Float) : Json → Json
  | .float x => .float (f x)
  | .array items => .array (mapItems f items)
  | .object members => .object (mapMembers f members)
  | j => j
termination_by structural j => j

def mapItems (f : Float → Float) : List Json → List Json
  | [] => []
  | j :: rest => mapFloats f j :: mapItems f rest
termination_by structural items => items

def mapMembers (f : Float → Float) : List (String × Json) → List (String × Json)
  | [] => []
  | (k, j) :: rest => (k, mapFloats f j) :: mapMembers f rest
termination_by structural members => members

end

theorem mapItems_eq (f : Float → Float) (items : List Json) :
    mapItems f items = items.map (mapFloats f) := by
  induction items with
  | nil => rfl
  | cons j items ih => rw [mapItems, ih, List.map_cons]

theorem mapMembers_eq (f : Float → Float) (members : List (String × Json)) :
    mapMembers f members = members.map fun m => (m.1, mapFloats f m.2) := by
  induction members with
  | nil => rfl
  | cons m members ih => rw [mapMembers, ih, List.map_cons]

def Token.lexeme : Token → Lexeme
  | .scalar (.text s) => .text s
  | .scalar j => .word (Json.scalar j)
  | t => .mark t

def Token.mapFloats (f : Float → Float) : Token → Token
  | .scalar (.float x) => .scalar (.float (f x))
  | t => t

def Token.float? : Token → Option Float
  | .scalar (.float x) => some x
  | _ => none

def floats (j : Json) : List Float := (emit j).filterMap Token.float?

/-- Floats that have a number for a text. -/
def IsNumber (x : Float) : Prop := x.isFinite = true

/-- Documents whose integers fit 64 bits and whose objects have each member once, with at most so
many containers nested, and floats for which something holds. -/
inductive Readable (P : Float → Prop) : (depth : Nat) → Json → Prop
  | null {depth : Nat} : Readable P depth .null
  | bool {depth : Nat} (b : Bool) : Readable P depth (.bool b)
  | integer {depth : Nat} {n : Int} (least : Number.leastInteger ≤ n)
    (greatest : n ≤ Number.greatestInteger) : Readable P depth (.integer n)
  | float {depth : Nat} {x : Float} (holds : P x) : Readable P depth (.float x)
  | text {depth : Nat} (s : String) : Readable P depth (.text s)
  | array {depth : Nat} {items : List Json} (each : ∀ j ∈ items, Readable P depth j) :
    Readable P (depth + 1) (.array items)
  | object {depth : Nat} {members : List (String × Json)}
    (distinct : (members.map Prod.fst).Nodup) (each : ∀ m ∈ members, Readable P depth m.2) :
    Readable P (depth + 1) (.object members)

section Readable

variable {P Q : Float → Prop} {depth : Nat} {j : Json}

theorem readable_ofNat {n : Nat} (small : n < UInt64.size) : Readable P depth (ofNat n) := by
  unfold UInt64.size at small
  apply Readable.integer
  · show -9223372036854775808 ≤ (n : Int)
    omega
  · show (n : Int) ≤ 18446744073709551615
    omega

theorem readable_ofTexts (texts : List String) : Readable P (depth + 1) (ofTexts texts) := by
  refine .array fun j member => ?_
  obtain ⟨s, -, rfl⟩ := List.mem_map.mp member
  exact .text s

theorem readable_ofOption {α : Type} {encode : α → Json} {o : Option α}
    (each : ∀ a ∈ o, Readable P depth (encode a)) : Readable P depth (ofOption encode o) := by
  cases o with
  | none => exact .null
  | some a => exact each a rfl

theorem readable_ofFloat (x : Float) : Readable IsNumber depth (ofFloat x) := by
  unfold ofFloat
  split_ifs with finite
  · exact .float finite
  · exact .null

theorem Readable.imp (readable : Readable P depth j) (weaker : ∀ x, P x → Q x) :
    Readable Q depth j := by
  induction readable with
  | null => exact .null
  | bool b => exact .bool b
  | integer least greatest => exact .integer least greatest
  | float holds => exact .float (weaker _ holds)
  | text s => exact .text s
  | array _ ih => exact .array ih
  | object distinct _ ih => exact .object distinct ih

/-- Other floats change nothing of the shape of a document. -/
theorem Readable.mapFloats (readable : Readable P depth j) (f : Float → Float) :
    Readable (fun _ => True) depth (j.mapFloats f) := by
  induction readable with
  | null => exact .null
  | bool b => exact .bool b
  | integer least greatest => exact .integer least greatest
  | float => exact .float trivial
  | text s => exact .text s
  | array _ ih =>
    rw [Json.mapFloats, mapItems_eq]
    exact .array (List.forall_mem_map.mpr ih)
  | object distinct _ ih =>
    rw [Json.mapFloats, mapMembers_eq]
    refine .object ?_ (List.forall_mem_map.mpr ih)
    rwa [List.map_map]

theorem mapFloats_eq_self {f : Float → Float} (readable : Readable (fun x => f x = x) depth j) :
    j.mapFloats f = j := by
  induction readable with
  | null => rfl
  | bool b => rfl
  | integer => rfl
  | float same => exact congrArg Json.float same
  | text s => rfl
  | array _ ih =>
    rw [mapFloats, mapItems_eq, List.map_congr_left ih, List.map_id']
  | object _ _ ih =>
    rw [mapFloats, mapMembers_eq, List.map_congr_left fun m inside => by rw [ih m inside],
      List.map_id']

end Readable

section Separated

variable {α β : Type}

private def separated (mark : β) (one : α → List β) : List α → List β
  | [] => []
  | a :: rest => one a ++ (if rest.isEmpty then [] else mark :: separated mark one rest)

private theorem separated_singleton (mark : β) (one : α → List β) (a : α) :
    separated mark one [a] = one a :=
  List.append_nil _

private theorem separated_cons_cons (mark : β) (one : α → List β) (a b : α) (rest : List α) :
    separated mark one (a :: b :: rest) = one a ++ mark :: separated mark one (b :: rest) := rfl

private theorem separated_map {γ : Type} (mark : β) (one : α → List β) (g : β → γ)
    (elements : List α) : (separated mark one elements).map g =
      separated (g mark) (fun a => (one a).map g) elements := by
  induction elements with
  | nil => rfl
  | cons a elements ih =>
    rw [separated, separated, List.map_append]
    split
    · rfl
    · rw [List.map_cons, ih]

private theorem separated_map_left {γ : Type} (mark : β) (one : α → List β) (g : γ → α)
    (elements : List γ) : separated mark one (elements.map g) =
      separated mark (fun c => one (g c)) elements := by
  induction elements with
  | nil => rfl
  | cons c elements ih => rw [List.map_cons, separated, separated, ih, List.isEmpty_map]

private theorem mem_separated {mark b : β} {one : α → List β} {elements : List α}
    (inside : b ∈ separated mark one elements) : b = mark ∨ ∃ a ∈ elements, b ∈ one a := by
  induction elements with
  | nil => cases inside
  | cons a elements ih =>
    rw [separated, List.mem_append] at inside
    rcases inside with first | later
    · exact .inr ⟨a, List.mem_cons_self, first⟩
    · split at later
      · cases later
      · rcases List.mem_cons.mp later with rfl | later
        · exact .inl rfl
        · exact (ih later).imp_right fun ⟨a, member, here⟩ =>
            ⟨a, List.mem_cons_of_mem _ member, here⟩

private theorem mem_separated_of_mem {mark b : β} {one : α → List β} {elements : List α} {a : α}
    (member : a ∈ elements) (here : b ∈ one a) : b ∈ separated mark one elements := by
  induction elements with
  | nil => cases member
  | cons a' elements ih =>
    rw [separated, List.mem_append]
    rcases List.mem_cons.mp member with rfl | member
    · exact .inl here
    · right
      rw [if_neg (by simpa using List.ne_nil_of_mem member)]
      exact List.mem_cons_of_mem _ (ih member)

private theorem separated_congr {mark : β} {one other : α → List β} {elements : List α}
    (same : ∀ a ∈ elements, one a = other a) :
    separated mark one elements = separated mark other elements := by
  induction elements with
  | nil => rfl
  | cons a elements ih =>
    rw [List.forall_mem_cons] at same
    rw [separated, separated, same.1, ih same.2]

private theorem emitItems_eq (items : List Json) :
    emitItems items = separated .comma emit items := by
  induction items with
  | nil => rfl
  | cons j items ih => rw [emitItems, separated, ih]

private theorem emitMembers_eq (members : List (String × Json)) :
    emitMembers members =
      separated .comma (fun m => .scalar (.text m.1) :: .colon :: emit m.2) members := by
  induction members with
  | nil => rfl
  | cons m members ih => rw [emitMembers, separated, ih, List.cons_append, List.cons_append]

private theorem prettyItems_eq (depth : Nat) (items : List Json) :
    prettyItems depth items = separated ',' (fun j => newline depth ++ pretty depth j) items := by
  induction items with
  | nil => rfl
  | cons j items ih => rw [prettyItems, separated, ih]

private theorem prettyMembers_eq (depth : Nat) (members : List (String × Json)) :
    prettyMembers depth members = separated ','
      (fun m => newline depth ++ (quoted m.1 ++ ':' :: ' ' :: pretty depth m.2)) members := by
  induction members with
  | nil => rfl
  | cons m members ih =>
    rw [prettyMembers, separated, ih]
    simp only [List.append_assoc, List.cons_append]

private theorem compactItems_eq (items : List Json) :
    compactItems items = separated ',' compact items := by
  induction items with
  | nil => rfl
  | cons j items ih => rw [compactItems, separated, ih]

private theorem compactMembers_eq (members : List (String × Json)) :
    compactMembers members =
      separated ',' (fun m => quoted m.1 ++ ':' :: compact m.2) members := by
  induction members with
  | nil => rfl
  | cons m members ih =>
    rw [compactMembers, separated, ih]
    simp only [List.append_assoc, List.cons_append]

end Separated

section Writing

private theorem endsWord_cons {c : Char} (apart : isWordChar c = false) (rest : List Char) :
    EndsWord (c :: rest) := by
  intro d front
  obtain rfl : c = d := by simpa using front
  exact apart

private theorem endsWord_newline (depth : Nat) (rest : List Char) :
    EndsWord (newline depth ++ rest) :=
  endsWord_cons (by decide) _

/-- A text is cut into lexemes, whatever follows that no word goes on into. -/
private def Cut (text : List Char) (lexemes : List Lexeme) : Prop :=
  ∀ rest : List Char, EndsWord rest →
    lexemes? (text ++ rest) = (lexemes? rest).map (lexemes ++ ·)

variable {text : List Char} {lexemes : List Lexeme}

private theorem cut_word (h : IsWord text) : Cut text [.word text] :=
  fun _ ends => lexemes?_word h ends

private theorem cut_quoted (s : String) : Cut (quoted s) [.text s] :=
  fun rest _ => lexemes?_quoted s rest

private theorem Cut.after_newline (cut : Cut text lexemes) (depth : Nat) :
    Cut (newline depth ++ text) lexemes := by
  intro rest ends
  rw [List.append_assoc, lexemes?_newline, cut rest ends]

private theorem Cut.before_newline (cut : Cut text lexemes) (depth : Nat) :
    Cut (text ++ newline depth) lexemes := by
  intro rest _
  rw [List.append_assoc, cut _ (endsWord_newline depth rest), lexemes?_newline]

private theorem Cut.after_space (cut : Cut text lexemes) : Cut (' ' :: text) lexemes := by
  intro rest ends
  rw [List.cons_append, lexemes?_space, cut rest ends]

private theorem Cut.member (cut : Cut text lexemes) (key : String) :
    Cut (quoted key ++ ':' :: text) (.text key :: .mark .colon :: lexemes) := by
  intro rest ends
  rw [List.append_assoc, List.cons_append, lexemes?_quoted,
    lexemes?_mark (t := .colon) (by decide) (by decide), cut rest ends]
  simp [Option.map_map, Function.comp_def]

private theorem Cut.between (cut : Cut text lexemes) {start stop : Char} {first last : Token}
    (opens : mark? start = some first) (solid : isSpace start = false)
    (closes : mark? stop = some last) (solid' : isSpace stop = false) :
    Cut (start :: (text ++ [stop])) (.mark first :: (lexemes ++ [.mark last])) := by
  intro rest _
  have ends : EndsWord (stop :: rest) := endsWord_cons (by simp [isWordChar, closes]) rest
  rw [List.cons_append, List.append_assoc, lexemes?_mark opens solid, List.cons_append,
    List.nil_append, cut _ ends, lexemes?_mark closes solid']
  simp [Option.map_map, Function.comp_def]

private theorem Cut.separated {α : Type} {write : α → List Char} {lex : α → List Lexeme}
    {elements : List α} (each : ∀ a ∈ elements, Cut (write a) (lex a)) :
    Cut (separated ',' write elements) (separated (.mark .comma) lex elements) := by
  induction elements with
  | nil =>
    intro rest _
    simp [Json.separated]
  | cons a elements ih =>
    rw [List.forall_mem_cons] at each
    obtain ⟨first, others⟩ := each
    cases elements with
    | nil =>
      rw [separated_singleton, separated_singleton]
      exact first
    | cons a' elements =>
      rw [separated_cons_cons, separated_cons_cons]
      intro rest ends
      rw [List.append_assoc, List.cons_append, first _ (endsWord_cons (by decide) _),
        lexemes?_mark (t := .comma) (by decide) (by decide), ih others rest ends]
      simp [Option.map_map, Function.comp_def]

private theorem isWord_null : IsWord (scalar .null) :=
  ⟨by decide, List.all_eq_true.mp (by decide +kernel)⟩

private theorem isWord_bool (b : Bool) : IsWord (scalar (.bool b)) := by
  cases b with
  | false => exact ⟨by decide, List.all_eq_true.mp (by decide +kernel)⟩
  | true => exact ⟨by decide, List.all_eq_true.mp (by decide +kernel)⟩

private theorem lexemes_items (items : List Json) : (emit (.array items)).map Token.lexeme =
    .mark .openArray :: (separated (.mark .comma) (fun j => (emit j).map Token.lexeme) items ++
      [.mark .closeArray]) := by
  rw [emit, emitItems_eq, List.map_cons, List.map_append, separated_map]
  rfl

private theorem lexemes_members (members : List (String × Json)) :
    (emit (.object members)).map Token.lexeme = .mark .openObject ::
      (separated (.mark .comma)
        (fun m => .text m.1 :: .mark .colon :: (emit m.2).map Token.lexeme) members ++
      [.mark .closeObject]) := by
  rw [emit, emitMembers_eq, List.map_cons, List.map_append, separated_map]
  rfl

private theorem cut_pretty {depth : Nat} {j : Json} (readable : Readable IsNumber depth j)
    (indent : Nat) : Cut (pretty indent j) ((emit j).map Token.lexeme) := by
  induction readable generalizing indent with
  | null => exact cut_word isWord_null
  | bool b => exact cut_word (isWord_bool b)
  | integer => exact cut_word (isWord_toString _)
  | float finite => exact cut_word (isWord_floatText finite)
  | text s => exact cut_quoted s
  | @array depth items _ ih =>
    have each : ∀ j ∈ items,
        Cut (newline (indent + 1) ++ pretty (indent + 1) j) ((emit j).map Token.lexeme) :=
      fun j inside => (ih j inside (indent + 1)).after_newline (indent + 1)
    have written : pretty indent (.array items) = '[' :: ((prettyItems (indent + 1) items ++
        if items.isEmpty then [] else newline indent) ++ [']']) := by
      cases items <;> rfl
    rw [written, lexemes_items, prettyItems_eq]
    refine Cut.between ?_ rfl rfl rfl rfl
    split
    · rw [List.append_nil]
      exact Cut.separated each
    · exact (Cut.separated each).before_newline indent
  | @object depth members _ _ ih =>
    have each : ∀ m ∈ members, Cut
        (newline (indent + 1) ++ (quoted m.1 ++ ':' :: ' ' :: pretty (indent + 1) m.2))
        (.text m.1 :: .mark .colon :: (emit m.2).map Token.lexeme) :=
      fun m inside => ((ih m inside (indent + 1)).after_space.member m.1).after_newline (indent + 1)
    have written : pretty indent (.object members) = '\x7b' ::
        ((prettyMembers (indent + 1) members ++
          if members.isEmpty then [] else newline indent) ++ ['\x7d']) := by
      cases members <;> rfl
    rw [written, lexemes_members, prettyMembers_eq]
    refine Cut.between ?_ rfl rfl rfl rfl
    split
    · rw [List.append_nil]
      exact Cut.separated each
    · exact (Cut.separated each).before_newline indent

private theorem cut_compact {depth : Nat} {j : Json} (readable : Readable IsNumber depth j) :
    Cut (compact j) ((emit j).map Token.lexeme) := by
  induction readable with
  | null => exact cut_word isWord_null
  | bool b => exact cut_word (isWord_bool b)
  | integer => exact cut_word (isWord_toString _)
  | float finite => exact cut_word (isWord_floatText finite)
  | text s => exact cut_quoted s
  | array _ ih =>
    rw [compact, lexemes_items, compactItems_eq]
    exact (Cut.separated ih).between rfl rfl rfl rfl
  | object _ _ ih =>
    rw [compact, lexemes_members, compactMembers_eq]
    exact (Cut.separated fun m inside => (ih m inside).member m.1).between rfl rfl rfl rfl

theorem lexemes?_savedText {depth : Nat} {j : Json} (readable : Readable IsNumber depth j) :
    lexemes? j.savedText.toList = some ((emit j).map Token.lexeme) := by
  have blank : lexemes? ['\n'] = some [] := by
    rw [lexemes?, if_pos (by decide), lexemes?]
  rw [savedText, String.toList_ofList,
    cut_pretty readable 0 ['\n'] (endsWord_cons (by decide) []), blank, Option.map_some,
    List.append_nil]

theorem lexemes?_compact {depth : Nat} {j : Json} (readable : Readable IsNumber depth j) :
    lexemes? j.compact = some ((emit j).map Token.lexeme) := by
  have nothing : lexemes? [] = some [] := by rw [lexemes?]
  have cut := cut_compact readable [] (by simp [EndsWord])
  rwa [List.append_nil, nothing, Option.map_some, List.append_nil] at cut

end Writing

section Words

variable {P : Float → Prop} {depth : Nat} {j : Json} {f : Float → Float}
  {read : List Char → Option Json}

private theorem readable_of_mem_emit (readable : Readable P depth j) {k : Json}
    (inside : .scalar k ∈ emit j) : Readable P 0 k := by
  induction readable with
  | null => exact Token.scalar.inj (List.mem_singleton.mp inside) ▸ .null
  | bool b => exact Token.scalar.inj (List.mem_singleton.mp inside) ▸ .bool b
  | integer least greatest =>
    exact Token.scalar.inj (List.mem_singleton.mp inside) ▸ .integer least greatest
  | float holds => exact Token.scalar.inj (List.mem_singleton.mp inside) ▸ .float holds
  | text s => exact Token.scalar.inj (List.mem_singleton.mp inside) ▸ .text s
  | array _ ih =>
    rw [emit, emitItems_eq] at inside
    simp only [List.mem_cons, List.mem_append, reduceCtorEq, false_or, List.not_mem_nil,
      or_false] at inside
    rcases mem_separated inside with mark | ⟨i, member, here⟩
    · cases mark
    · exact ih i member here
  | object _ _ ih =>
    rw [emit, emitMembers_eq] at inside
    simp only [List.mem_cons, List.mem_append, reduceCtorEq, false_or, List.not_mem_nil,
      or_false] at inside
    rcases mem_separated inside with mark | ⟨m, member, here⟩
    · cases mark
    · simp only [List.mem_cons, reduceCtorEq, false_or] at here
      rcases here with key | here
      · exact Token.scalar.inj key ▸ .text m.1
      · exact ih m member here

private theorem emit_mapFloats (readable : Readable P depth j) (f : Float → Float) :
    emit (j.mapFloats f) = (emit j).map (Token.mapFloats f) := by
  induction readable with
  | array _ ih =>
    rw [mapFloats, mapItems_eq, emit, emitItems_eq, separated_map_left, separated_congr ih, emit,
      emitItems_eq, List.map_cons, List.map_append, separated_map]
    rfl
  | @object _ members _ _ ih =>
    have each : ∀ m ∈ members, Token.scalar (.text m.1) :: .colon :: emit (m.2.mapFloats f) =
        (Token.scalar (.text m.1) :: .colon :: emit m.2).map (Token.mapFloats f) := by
      intro m inside
      rw [ih m inside]
      rfl
    rw [mapFloats, mapMembers_eq, emit, emitMembers_eq, separated_map_left,
      separated_congr each, emit, emitMembers_eq, List.map_cons, List.map_append, separated_map]
    rfl
  | _ => rfl

theorem mem_floats_iff {x : Float} : x ∈ j.floats ↔ .scalar (.float x) ∈ emit j := by
  rw [floats, List.mem_filterMap]
  constructor
  · rintro ⟨t, inside, isFloat⟩
    unfold Token.float? at isFloat
    split at isFloat
    · exact Option.some.inj isFloat ▸ inside
    · cases isFloat
  · exact fun inside => ⟨_, inside, rfl⟩

theorem Readable.of_floats (readable : Readable P depth j) {Q : Float → Prop}
    (each : ∀ x ∈ j.floats, Q x) : Readable Q depth j := by
  simp only [mem_floats_iff] at each
  induction readable with
  | null => exact .null
  | bool b => exact .bool b
  | integer least greatest => exact .integer least greatest
  | float => exact .float (each _ (List.mem_singleton_self _))
  | text s => exact .text s
  | array _ ih =>
    refine .array fun i member => ih i member fun x inside => each x ?_
    rw [emit, emitItems_eq]
    exact List.mem_cons_of_mem _ (List.mem_append_left _ (mem_separated_of_mem member inside))
  | object distinct _ ih =>
    refine .object distinct fun m member => ih m member fun x inside => each x ?_
    rw [emit, emitMembers_eq]
    refine List.mem_cons_of_mem _ (List.mem_append_left _ (mem_separated_of_mem member ?_))
    exact List.mem_cons_of_mem _ (List.mem_cons_of_mem _ inside)

theorem Readable.forall_floats (readable : Readable P depth j) : ∀ x ∈ j.floats, P x := by
  intro x inside
  cases readable_of_mem_emit readable (mem_floats_iff.mp inside) with
  | float holds => exact holds

/-- Words are read as they are in documents, save those that floats are written as. -/
structure ReadsAs (P : Float → Prop) (read : List Char → Option Json)
    (f : Float → Float) : Prop where
  other : ∀ cs, (∀ l, Number.literal? cs = some l → l.isExact = true) → read cs = word? cs
  float : ∀ x, P x → read (floatText x) = some (.float (f x))

private theorem token?_lexeme (reads : ReadsAs P read f) (readable : Readable P depth j) {t : Token}
    (inside : t ∈ emit j) : t.lexeme.token? read = some (t.mapFloats f) := by
  have noLiteral {cs : List Char} (none : Number.literal? cs = none) :
      ∀ l, Number.literal? cs = some l → l.isExact = true := by
    intro l found
    rw [none] at found
    cases found
  cases t with
  | scalar k =>
    cases readable_of_mem_emit readable inside with
    | null => exact congrArg (Option.map Token.scalar) (reads.other _ (noLiteral (by decide)))
    | bool b =>
      cases b with
      | false => exact congrArg (Option.map Token.scalar) (reads.other _ (noLiteral (by decide)))
      | true => exact congrArg (Option.map Token.scalar) (reads.other _ (noLiteral (by decide)))
    | integer least greatest =>
      obtain ⟨⟨l, literal, exact⟩, read⟩ := word?_toString least greatest
      refine congrArg (Option.map Token.scalar) ((reads.other _ fun l' found => ?_).trans read)
      rw [literal] at found
      exact Option.some.inj found ▸ exact
    | float holds => exact congrArg (Option.map Token.scalar) (reads.float _ holds)
    | text s => rfl
  | _ => rfl

private theorem mapM_eq_some {α β : Type} {elements : List α} {g : α → Option β} {h : α → β}
    (each : ∀ a ∈ elements, g a = some (h a)) : elements.mapM g = some (elements.map h) := by
  induction elements with
  | nil => rfl
  | cons a elements ih =>
    rw [List.forall_mem_cons] at each
    rw [List.mapM_cons, each.1, ih each.2]
    rfl

/-- The lexemes of a document are read as the tokens of the document with the floats that are
read. -/
theorem mapM_token? (reads : ReadsAs P read f) (readable : Readable P depth j) :
    ((emit j).map Token.lexeme).mapM (Lexeme.token? read) = some (emit (j.mapFloats f)) := by
  rw [emit_mapFloats readable, List.mapM_map]
  exact mapM_eq_some fun t inside => token?_lexeme reads readable inside

end Words

section Reading

variable {limit : Nat}

/-- Tokens take the machine from one state to another. -/
private def Leads (limit : Nat) (m : Machine) (tokens : List Token) (m' : Machine) : Prop :=
  tokens.foldlM (Machine.step limit) m = some m'

private theorem Leads.append {m m' m'' : Machine} {tokens others : List Token}
    (first : Leads limit m tokens m') (second : Leads limit m' others m'') :
    Leads limit m (tokens ++ others) m'' := by
  unfold Leads at *
  rw [List.foldlM_append, first]
  exact second

private theorem Leads.cons {m m' m'' : Machine} {t : Token} {tokens : List Token}
    (first : m.step limit t = some m') (second : Leads limit m' tokens m'') :
    Leads limit m (t :: tokens) m'' := by
  unfold Leads at *
  rw [List.foldlM_cons, first]
  exact second

private theorem Leads.nil (m : Machine) : Leads limit m [] m := rfl

private def Taken (limit depth : Nat) (j : Json) : Prop :=
  ∀ stack : List Frame, stack.length + depth ≤ limit →
    Leads limit ⟨.value, stack⟩ (emit j) ⟨.next j, stack⟩

private theorem leads_itemOrClose {j : Json} {tokens : List Token} {stack : List Frame}
    {m : Machine} (leads : Leads limit ⟨.value, .array [] :: stack⟩ (emit j ++ tokens) m) :
    Leads limit ⟨.itemOrClose, stack⟩ (emit j ++ tokens) m := by
  have first (t : Token) (others : List Token) (apart : t ≠ .closeArray)
      (leads : Leads limit ⟨.value, .array [] :: stack⟩ (t :: others) m) :
      Leads limit ⟨.itemOrClose, stack⟩ (t :: others) m := by
    cases t with
    | closeArray => exact absurd rfl apart
    | _ => exact leads
  cases j with
  | array items => exact first _ _ (by simp) leads
  | object members => exact first _ _ (by simp) leads
  | _ => exact first _ _ (by simp) leads

private theorem leads_items {depth : Nat} {j : Json} {items : List Json}
    (each : ∀ i ∈ j :: items, Taken limit depth i) (before : List Json) {stack : List Frame}
    (room : stack.length + 1 + depth ≤ limit) :
    Leads limit ⟨.value, .array before :: stack⟩ (emitItems (j :: items) ++ [.closeArray])
      ⟨.next (.array (before.reverse ++ j :: items)), stack⟩ := by
  induction items generalizing j before with
  | nil =>
    have first := each j List.mem_cons_self (.array before :: stack) (by simpa using room)
    have closed : Machine.step limit ⟨.next j, .array before :: stack⟩ .closeArray =
        some ⟨.next (.array (before.reverse ++ [j])), stack⟩ := by
      rw [← List.reverse_cons]
      rfl
    simp only [emitItems, List.isEmpty_nil, if_true, List.append_nil]
    exact first.append (.cons closed (.nil _))
  | cons i items ih =>
    have first := each j List.mem_cons_self (.array before :: stack) (by simpa using room)
    have others := ih (fun i member => each i (List.mem_cons_of_mem _ member)) (j :: before)
    rw [List.reverse_cons, List.append_assoc] at others
    rw [emitItems]
    simp only [List.isEmpty_cons, Bool.false_eq_true, if_false, List.append_assoc,
      List.cons_append]
    exact first.append (.cons rfl others)

private theorem setMember_of_not_mem {key : String} {value : Json}
    {members : List (String × Json)} (new : key ∉ members.map Prod.fst) :
    setMember key value members = members ++ [(key, value)] := by
  induction members with
  | nil => rfl
  | cons m members ih =>
    simp only [List.map_cons, List.mem_cons, not_or] at new
    simp [setMember, Ne.symm new.1, ih new.2]

private theorem not_mem_before {k : String} {j : Json} {before members : List (String × Json)}
    (distinct : ((before ++ (k, j) :: members).map Prod.fst).Nodup) :
    k ∉ before.map Prod.fst := by
  rw [List.map_append] at distinct
  intro old
  exact (List.nodup_append.mp distinct).2.2 k old k (by simp) rfl

private theorem leads_members {depth : Nat} {k : String} {j : Json}
    {members : List (String × Json)} (each : ∀ m ∈ (k, j) :: members, Taken limit depth m.2)
    (before : List (String × Json))
    (distinct : ((before ++ (k, j) :: members).map Prod.fst).Nodup) {stack : List Frame}
    (room : stack.length + 1 + depth ≤ limit) {expected : Expected}
    (named : Machine.step limit ⟨expected, stack⟩ (.scalar (.text k)) =
      some ⟨.colon before k, stack⟩) :
    Leads limit ⟨expected, stack⟩ (emitMembers ((k, j) :: members) ++ [.closeObject])
      ⟨.next (.object (before ++ (k, j) :: members)), stack⟩ := by
  induction members generalizing k j before expected with
  | nil =>
    have new := not_mem_before distinct
    have first := each (k, j) List.mem_cons_self (.object before k :: stack) (by simpa using room)
    have closed : Machine.step limit ⟨.next j, .object before k :: stack⟩ .closeObject =
        some ⟨.next (.object (before ++ [(k, j)])), stack⟩ := by
      rw [← setMember_of_not_mem new]
      rfl
    simp only [emitMembers, List.isEmpty_nil, if_true, List.append_nil]
    exact .cons named (.cons rfl (first.append (.cons closed (.nil _))))
  | cons m members ih =>
    have new := not_mem_before distinct
    obtain ⟨k', j'⟩ := m
    have first := each (k, j) List.mem_cons_self (.object before k :: stack) (by simpa using room)
    have named' : Machine.step limit ⟨.key (before ++ [(k, j)]), stack⟩ (.scalar (.text k')) =
        some ⟨.colon (before ++ [(k, j)]) k', stack⟩ := rfl
    have others := ih (fun m member => each m (List.mem_cons_of_mem _ member))
      (before ++ [(k, j)]) (by simpa using distinct) named'
    rw [List.append_assoc] at others
    have comma : Machine.step limit ⟨.next j, .object before k :: stack⟩ .comma =
        some ⟨.key (before ++ [(k, j)]), stack⟩ := by
      rw [← setMember_of_not_mem new]
      rfl
    rw [emitMembers]
    simp only [List.isEmpty_cons, Bool.false_eq_true, if_false, List.append_assoc,
      List.cons_append]
    exact .cons named (.cons rfl (first.append (.cons comma others)))

private theorem taken_of_readable {P : Float → Prop} {depth : Nat} {j : Json}
    (readable : Readable P depth j) : Taken limit depth j := by
  induction readable with
  | @array depth items _ ih =>
    intro stack room
    have shallow : stack.length < limit := by omega
    have opened : Machine.step limit ⟨.value, stack⟩ .openArray = some ⟨.itemOrClose, stack⟩ :=
      if_pos shallow
    rw [emit]
    refine .cons opened ?_
    cases items with
    | nil => exact .cons rfl (.nil _)
    | cons j items =>
      have room' : stack.length + 1 + depth ≤ limit := by omega
      have items_taken := leads_items ih [] room'
      rw [emitItems, List.append_assoc] at items_taken ⊢
      exact leads_itemOrClose items_taken
  | @object depth members distinct _ ih =>
    intro stack room
    have shallow : stack.length < limit := by omega
    have opened : Machine.step limit ⟨.value, stack⟩ .openObject = some ⟨.keyOrClose, stack⟩ :=
      if_pos shallow
    rw [emit]
    refine .cons opened ?_
    cases members with
    | nil => exact .cons rfl (.nil _)
    | cons m members => exact leads_members ih [] distinct (by omega) rfl
  | _ => exact fun stack _ => .cons rfl (.nil _)

theorem foldlM_emit {P : Float → Prop} {j : Json} (readable : Readable P limit j) :
    (emit j).foldlM (Machine.step limit) Machine.start = some ⟨.next j, []⟩ :=
  taken_of_readable readable [] (by simp)

end Reading

section Saved

variable {limit : Nat} {j k : Json}

private theorem isSome_of_mapM {α β : Type} {elements : List α} {g : α → Option β} {others : List β}
    (all : elements.mapM g = some others) : ∀ a ∈ elements, (g a).isSome = true := by
  induction elements generalizing others with
  | nil => simp
  | cons a elements ih =>
    rw [List.mapM_cons] at all
    obtain ⟨b, first, all⟩ := Option.bind_eq_some_iff.mp all
    obtain ⟨rest, later, -⟩ := Option.bind_eq_some_iff.mp all
    exact List.forall_mem_cons.mpr ⟨Option.isSome_of_mem first, ih later⟩

private theorem tokens?_savedText (readable : Readable IsNumber limit j) :
    tokens? j.savedText.toList = ((emit j).map Token.lexeme).mapM (Lexeme.token? word?) := by
  rw [tokens?, lexemes?_savedText readable, Option.bind_some]

/-- A saved document is read as it was, but with the floats that its own are read as; it is not read
at all where one of these is read as none. -/
theorem read?_savedText_eq_some_iff (readable : Readable IsNumber limit j) :
    read? limit j.savedText = some k ↔
      (∀ x ∈ j.floats, (reread? x).isSome = true) ∧ k = j.mapFloats reread := by
  have whole (each : ∀ x ∈ j.floats, (reread? x).isSome = true) :
      read? limit j.savedText = some (j.mapFloats reread) := by
    have reads : ReadsAs (fun x => reread? x = some (reread x)) word? reread := by
      refine ⟨fun _ _ => rfl, fun x read => ?_⟩
      rw [word?_floatText (isFinite_of_reread? read).1, read]
      rfl
    have given := readable.of_floats fun x inside => reread?_eq_some_reread (each x inside)
    rw [read?, tokens?_savedText readable, mapM_token? reads given, Option.bind_eq_bind,
      Option.bind_some, foldlM_emit (readable.mapFloats reread)]
    rfl
  constructor
  · intro read
    have each : ∀ x ∈ j.floats, (reread? x).isSome = true := by
      obtain ⟨tokens, cut, -⟩ := Option.bind_eq_some_iff.mp read
      rw [tokens?_savedText readable] at cut
      intro x inside
      have token := isSome_of_mapM cut _ (List.mem_map_of_mem (mem_floats_iff.mp inside))
      have finite := readable.forall_floats x inside
      have spelled : (Option.map Token.scalar (word? (floatText x))).isSome = true := token
      rwa [word?_floatText finite, Option.isSome_map, Option.isSome_map] at spelled
    rw [whole each] at read
    exact ⟨each, (Option.some.inj read).symm⟩
  · rintro ⟨each, rfl⟩
    exact whole each

theorem read?_savedText_eq_self_iff (readable : Readable IsNumber limit j) :
    read? limit j.savedText = some j ↔ ∀ x ∈ j.floats, GivenBack x := by
  rw [read?_savedText_eq_some_iff readable]
  constructor
  · rintro ⟨each, same⟩ x inside
    have tokens := congrArg emit same
    rw [emit_mapFloats readable, ← List.map_id (emit j), List.map_map, List.map_inj_left] at tokens
    have float := tokens _ (mem_floats_iff.mp inside)
    obtain ⟨y, read⟩ := Option.isSome_iff_exists.mp (each x inside)
    have fixed : x = reread x := by simpa [Token.mapFloats] using float
    rw [reread, read, Option.getD_some] at fixed
    rw [GivenBack, read, ← fixed]
  · intro each
    refine ⟨fun x inside => Option.isSome_of_mem (each x inside), ?_⟩
    refine (mapFloats_eq_self (readable.of_floats fun x inside => ?_)).symm
    rw [reread, each x inside, Option.getD_some]

theorem read?_savedText (readable : Readable GivenBack limit j) :
    read? limit j.savedText = some j :=
  (read?_savedText_eq_self_iff (readable.imp fun _ given => (isFinite_of_reread? given).1)).mpr
    readable.forall_floats

end Saved

end ToolTrial.Json
