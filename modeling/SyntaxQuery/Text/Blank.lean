import SyntaxQuery.Text.Ranges

/-!
# Blank characters and trimming

A character is blank when it only separates others, in any script. `trim` drops the blanks at both
ends and keeps those inside.
-/

namespace SyntaxQuery.Text

/-- The numbers of the characters that separate others without being drawn. -/
def blankRanges : Ranges :=
  ⟨[(0x9, 0xd), (0x20, 0x20), (0x85, 0x85), (0xa0, 0xa0), (0x1680, 0x1680), (0x2000, 0x200a),
   (0x2028, 0x2029), (0x202f, 0x202f), (0x205f, 0x205f), (0x3000, 0x3000)]⟩

/-- Whether `c` is a blank of some script. -/
def isBlank (c : Char) : Bool :=
  blankRanges.has c.toNat

/-- `cs` without the blanks at its end. -/
def trimEnd (cs : List Char) : List Char :=
  (cs.reverse.dropWhile isBlank).reverse

/-- `cs` without the blanks at either end. -/
def trim (cs : List Char) : List Char :=
  trimEnd (cs.dropWhile isBlank)

@[simp] theorem trim_nil : trim [] = [] := rfl

end SyntaxQuery.Text
