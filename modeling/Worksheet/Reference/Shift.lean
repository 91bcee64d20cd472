import Worksheet.Address.Basic
import Worksheet.Text.Piece

/-!
# Moving references

Inserting or deleting rows or columns moves the cells behind them, and the references in formulas
have to follow. A text is changed word by word: a word that names a cell is replaced by the
written form of the moved cell, and everything else stays as it is. The two corners of a range are
separate words and move on their own.

## Main definitions

* `Shift`: How far references move, and behind which column and row.
* `Shift.move`: Where an address lands, if it stays in the grid.
* `Shift.shiftWord`: A word after the shift.
* `Shift.shiftText`: A text after the shift.

## Theorems

* `Shift.shiftWord_of_address`: A reference becomes the written form of its target.
* `Shift.shiftWord_of_other`: Any other word stays.
-/

namespace Worksheet

/-- A movement of references: by so many columns right of `afterCol`, and by so many rows below
    `afterRow`. -/
structure Shift where
  /-- How many columns to the right. -/
  cols : Int
  /-- How many rows down. -/
  rows : Int
  /-- Only columns with a greater index move. -/
  afterCol : Int
  /-- Only rows with a greater index move. -/
  afterRow : Int
  deriving DecidableEq, Repr

namespace Shift

open Text

/-- An index after moving by `delta` if it is greater than `after`. -/
def moveIndex (delta after : Int) (index : Nat) : Int :=
  if (index : Int) > after then index + delta else index

/-- Where an address lands, if it stays in the grid. -/
def move (s : Shift) (a : Address) : Option Address :=
  Address.ofInts? (moveIndex s.cols s.afterCol a.col) (moveIndex s.rows s.afterRow a.row)

/-- What stands in a text for a reference that has left the grid. -/
def lostReference : String := "#REF!"

/-- A word after the shift: a reference follows its cell, any other word stays. -/
def shiftWord (s : Shift) (word : List Char) : List Char :=
  match Address.ofChars? word with
  | none => word
  | some a =>
    match s.move a with
    | none => lostReference.toList
    | some target => target.chars

/-- A piece of a text after the shift. -/
def shiftPiece (s : Shift) : Piece → List Char
  | .word run => s.shiftWord run
  | .mark c => [c]

/-- The characters of a text after the shift. -/
def shiftChars (s : Shift) (text : List Char) : List Char :=
  (pieces text).flatMap s.shiftPiece

/-- A text after the shift. -/
def shiftText (s : Shift) (text : String) : String := String.ofList (s.shiftChars text.toList)

theorem shiftWord_of_address {s : Shift} {word : List Char} {a target : Address}
    (hword : Address.ofChars? word = some a) (hmove : s.move a = some target) :
    s.shiftWord word = target.chars := by
  rw [shiftWord, hword]
  simp only [hmove]

theorem shiftWord_of_other {s : Shift} {word : List Char} (h : Address.ofChars? word = none) :
    s.shiftWord word = word := by
  rw [shiftWord, h]

end Shift

end Worksheet
