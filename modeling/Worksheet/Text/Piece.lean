import Worksheet.Text.Word

/-!
# Pieces of a text

A text falls into maximal runs of word characters and the single characters between them. Searching
a text for words and replacing words in it both work on this list of pieces, so neither ever splits
a word.

## Main definitions

* `Piece`: A word, or one character outside every word.
* `Piece.chars`: The characters of a piece.
* `pieces`: The pieces of a text, in order.

## Theorems

* `flatMap_chars_pieces`: Joining the pieces gives the text back.
-/

namespace Worksheet

namespace Text

/-- A word, or one character outside every word. -/
inductive Piece where
  /-- A maximal run of word characters. -/
  | word (run : List Char)
  /-- A character that belongs to no word. -/
  | mark (c : Char)
  deriving DecidableEq, Repr

/-- The characters of a piece. -/
def Piece.chars : Piece → List Char
  | word run => run
  | mark c => [c]

theorem length_dropWhile_le (p : Char → Bool) (s : List Char) :
    (s.dropWhile p).length ≤ s.length := (List.dropWhile_sublist p).length_le

/-- The pieces of a text, in order. -/
def pieces : List Char → List Piece
  | [] => []
  | c :: rest =>
    if isWord c then
      .word (c :: rest.takeWhile isWord) :: pieces (rest.dropWhile isWord)
    else
      .mark c :: pieces rest
termination_by s => s.length
decreasing_by
  · have := length_dropWhile_le isWord rest
    simp only [List.length_cons]
    omega
  · simp only [List.length_cons]
    omega

theorem flatMap_chars_pieces (s : List Char) : (pieces s).flatMap Piece.chars = s := by
  fun_induction pieces s with
  | case1 => rfl
  | case2 c rest _ ih =>
    rw [List.flatMap_cons, ih, Piece.chars, List.cons_append, List.takeWhile_append_dropWhile]
  | case3 c rest _ ih =>
    rw [List.flatMap_cons, ih]
    rfl

end Text

end Worksheet
