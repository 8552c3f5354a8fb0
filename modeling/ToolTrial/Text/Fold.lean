/-!
Letter case.  Only the letters of ASCII have two cases here; every other character stands for
itself.  `sameLetters` compares two texts letter by letter, `lower` builds the text that stands for
all texts of one spelling.
-/

set_option autoImplicit false
set_option relaxedAutoImplicit false

namespace ToolTrial.Text

/-- A text with its ASCII capitals made small. -/
def lower (s : String) : String :=
  String.ofList (s.toList.map Char.toLower)

def sameLettersList : List Char → List Char → Bool
  | [], [] => true
  | a :: as, b :: bs => a.toLower == b.toLower && sameLettersList as bs
  | _, _ => false

/-- Two texts that differ at most in the case of ASCII letters. -/
def sameLetters (s t : String) : Bool :=
  sameLettersList s.toList t.toList

def startsWith (s start : String) : Bool :=
  start.toList.isPrefixOf s.toList

def join (separator : String) : List String → String
  | [] => ""
  | [s] => s
  | s :: t :: rest => s ++ separator ++ join separator (t :: rest)

def quoted (s : String) : String :=
  "'" ++ s ++ "'"

end ToolTrial.Text
