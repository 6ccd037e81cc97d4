import FlatSyntax.Text.CodeRanges

/-!
White space, and the trimming that removes it from the ends of a text.
-/

namespace FlatSyntax.Text

/-- The characters that count as white space at the ends of a text: the separators and the control
characters that move to another column or line. -/
def blankRanges : CodeRanges :=
  [(0x9, 0xD), (0x1C, 0x20), (0x85, 0x85), (0xA0, 0xA0), (0x1680, 0x1680), (0x2000, 0x200A),
   (0x2028, 0x2029), (0x202F, 0x202F), (0x205F, 0x205F), (0x3000, 0x3000)]

def isBlank (c : Char) : Bool :=
  blankRanges.covers c.toNat

theorem blankRanges_ordered : blankRanges.ordered = true := by decide

/-- Remove the white space before the first other character. -/
def trimStart (text : List Char) : List Char :=
  text.dropWhile isBlank

/-- Remove the white space after the last other character. -/
def trimEnd (text : List Char) : List Char :=
  (text.reverse.dropWhile isBlank).reverse

/-- Remove the white space at both ends. -/
def trim (text : List Char) : List Char :=
  trimEnd (trimStart text)

end FlatSyntax.Text
