/-!
Blank text.  A character is blank when Unicode gives it the property White_Space; trimming removes
blanks from both ends and never from the middle.
-/

set_option autoImplicit false
set_option relaxedAutoImplicit false

namespace ToolTrial.Text

/-- The code points of White_Space, as closed ranges in ascending order. -/
def blankRanges : List (Nat × Nat) :=
  [(0x09, 0x0D), (0x20, 0x20), (0x85, 0x85), (0xA0, 0xA0), (0x1680, 0x1680), (0x2000, 0x200A),
   (0x2028, 0x2029), (0x202F, 0x202F), (0x205F, 0x205F), (0x3000, 0x3000)]

def isBlank (c : Char) : Bool :=
  blankRanges.any fun range => range.1 ≤ c.toNat && c.toNat ≤ range.2

/-- A text without any character that trimming would keep. -/
def allBlank (s : String) : Bool :=
  s.toList.all isBlank

def dropBlanksRight (cs : List Char) : List Char :=
  (cs.reverse.dropWhile isBlank).reverse

def trim (s : String) : String :=
  String.ofList (dropBlanksRight (s.toList.dropWhile isBlank))

end ToolTrial.Text
