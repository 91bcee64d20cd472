import Worksheet.Address.Basic

/-!
# Cell ranges

A rectangle of cells, written by two opposite corners as in `A1:C4`. The corners may be given in
any order; the range itself always runs from its top left cell to its bottom right one, which is
part of the type.

## Main definitions

* `Range`: A rectangle with its first and last cell.
* `Range.spanning`: The rectangle spanned by two cells.
* `Range.text`: The written form, such as `A1:B2`.
* `Range.parse`: The rectangle that a text names, or why it names none.
* `Range.contains`: Whether a cell lies in the rectangle.
* `Range.width`, `Range.height`, `Range.size`: How many columns, rows and cells it has.
* `Range.cellAt`: The cell at an offset, counted along the rows.
* `Range.cells`: All its cells, left to right and then top to bottom.

## Theorems

* `Range.spanning_comm`: The order of the corners does not matter.
* `Range.contains_iff`: A cell is in a range when both its indices are between those of the corners.
-/

namespace Worksheet

/-- A rectangle of cells, from its top left cell to its bottom right one. -/
@[ext]
structure Range where
  /-- The top left cell. -/
  first : Address
  /-- The bottom right cell. -/
  last : Address
  /-- The last column is not left of the first. -/
  col_le : first.col ≤ last.col
  /-- The last row is not above the first. -/
  row_le : first.row ≤ last.row
  deriving DecidableEq, Repr

namespace Range

/-- Why a text names no range. -/
inductive Error where
  /-- The text does not have exactly one colon. -/
  | separator (text : String)
  /-- What stands on one side of the colon names no cell. -/
  | corner (text : String) (cause : Address.Error)
  deriving DecidableEq, Repr

/-- The text shown for an error. -/
def Error.message : Error → String
  | separator text => "Invalid cell range: '" ++ text ++ "' needs exactly one ':'"
  | corner text cause => "Invalid cell range: '" ++ text ++ "': " ++ cause.message

/-- The rectangle spanned by two cells given in any order. -/
def spanning (a b : Address) : Range where
  first :=
    { col := min a.col b.col
      row := min a.row b.row
      col_lt := Nat.lt_of_le_of_lt (Nat.min_le_left _ _) a.col_lt
      row_lt := Nat.lt_of_le_of_lt (Nat.min_le_left _ _) a.row_lt }
  last :=
    { col := max a.col b.col
      row := max a.row b.row
      col_lt := Nat.max_lt.2 ⟨a.col_lt, b.col_lt⟩
      row_lt := Nat.max_lt.2 ⟨a.row_lt, b.row_lt⟩ }
  col_le := Nat.le_trans (Nat.min_le_left _ _) (Nat.le_max_left _ _)
  row_le := Nat.le_trans (Nat.min_le_left _ _) (Nat.le_max_left _ _)

/-- The written form: both corners, even of a single cell. -/
def text (r : Range) : String := r.first.text ++ ":" ++ r.last.text

/-- The rectangle that characters name: two addresses with one colon between them. -/
def ofChars (whole : List Char) : Except Error Range :=
  let name := String.ofList whole
  match whole.dropWhile (· ≠ ':') with
  | [] => .error (.separator name)
  | _ :: second =>
    if second.contains ':' then .error (.separator name)
    else do
      let a ← (Address.ofChars (whole.takeWhile (· ≠ ':'))).mapError (.corner name)
      let b ← (Address.ofChars second).mapError (.corner name)
      return spanning a b

/-- The rectangle that a text names, or why it names none. -/
def parse (s : String) : Except Error Range := ofChars s.toList

/-- The rectangle that characters name, if they name one. -/
def ofChars? (cs : List Char) : Option Range := (ofChars cs).toOption

/-- The rectangle that a text names, if it names one. -/
def parse? (s : String) : Option Range := ofChars? s.toList

/-- Whether a cell lies in the range. -/
def contains (r : Range) (a : Address) : Bool :=
  r.first.col ≤ a.col && a.col ≤ r.last.col && r.first.row ≤ a.row && a.row ≤ r.last.row

/-- The number of columns. -/
def width (r : Range) : Nat := r.last.col - r.first.col + 1

/-- The number of rows. -/
def height (r : Range) : Nat := r.last.row - r.first.row + 1

/-- The number of cells. -/
def size (r : Range) : Nat := r.height * r.width

theorem row_offset_lt {r : Range} {offset : Nat} (h : offset < r.size) :
    offset / r.width < r.height := by
  exact (Nat.div_lt_iff_lt_mul (Nat.succ_pos _)).2 h

/-- The cell at an offset from the first one, counted along the rows. -/
def cellAt (r : Range) (offset : Nat) (h : offset < r.size) : Address where
  col := r.first.col + offset % r.width
  row := r.first.row + offset / r.width
  col_lt := by
    have hmod : offset % r.width < r.width := Nat.mod_lt _ (Nat.succ_pos _)
    have := r.col_le
    have := r.last.col_lt
    rw [width] at hmod
    rw [width]
    omega
  row_lt := by
    have hdiv := row_offset_lt h
    have := r.row_le
    have := r.last.row_lt
    rw [height] at hdiv
    omega

/-- All cells of the range, left to right and then top to bottom. -/
def cells (r : Range) : List Address := List.ofFn fun i : Fin r.size => r.cellAt i i.isLt

theorem spanning_comm (a b : Address) : spanning a b = spanning b a := by
  simp only [spanning, Nat.min_comm, Nat.max_comm]

theorem contains_iff (r : Range) (a : Address) :
    r.contains a = true ↔
      (r.first.col ≤ a.col ∧ a.col ≤ r.last.col) ∧ (r.first.row ≤ a.row ∧ a.row ≤ r.last.row) := by
  simp only [contains, Bool.and_eq_true, decide_eq_true_eq, and_assoc]

end Range

end Worksheet
