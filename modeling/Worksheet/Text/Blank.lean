import Worksheet.Text.CodeRanges

/-!
# Blank characters

The Unicode property `White_Space`, and the removal of blanks around a text. Formulas, typed cells,
currency settings and row markers are all read without the blanks around them.

## Main definitions

* `blankRanges`: The code points with the property.
* `isBlank`: Whether a character is blank.
* `trimStart`, `trim`: A text without its leading blanks, and without those on both sides.

## Theorems

* `isBlank_of_isWhitespace`: The whitespace of ASCII is blank.
-/

namespace Worksheet

namespace Text

/-- The code points with the property `White_Space`. -/
def blankRanges : CodeRanges :=
  [
    (0x9, 0xD), (0x20, 0x20), (0x85, 0x85), (0xA0, 0xA0), (0x1680, 0x1680), (0x2000, 0x200A),
    (0x2028, 0x2029), (0x202F, 0x202F), (0x205F, 0x205F), (0x3000, 0x3000)
  ]

/-- Whether a character is blank in the sense of Unicode. -/
def isBlank (c : Char) : Bool := blankRanges.holds c.toNat

/-- The characters from the first one that is not blank. -/
def trimStart (s : List Char) : List Char := s.dropWhile isBlank

/-- The characters from the first to the last one that is not blank. -/
def trim (s : List Char) : List Char := (trimStart (trimStart s).reverse).reverse

theorem isBlank_of_isWhitespace (c : Char) (h : c.isWhitespace = true) : isBlank c = true := by
  simp only [Char.isWhitespace, Bool.or_eq_true, decide_eq_true_eq] at h
  rcases h with ((h | h) | h) | h <;> subst h <;> decide

end Text

end Worksheet
