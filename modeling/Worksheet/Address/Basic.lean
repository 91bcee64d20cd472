import Worksheet.Address.Column
import Worksheet.Decimal.Digits

/-!
# Cell addresses

The position of a cell in a grid of `Column.limit` columns and as many rows, counted from zero. In
text the column is spelled in letters and the row number counts from one, as in `B3`. The bounds
are part of the type, so no operation on addresses can leave the grid without saying so.

## Main definitions

* `Address`: A position in the grid.
* `Address.ofIndices?`: The position with given indices, if it lies in the grid.
* `Address.ofIndices`: The same with indices taken modulo the size of the grid.
* `Address.ofInts?`: The position with given indices, which may be negative.
* `Address.text`: The written form, such as `AA10`.
* `Address.parse`: The position that a text names, or why it names none.
* `Address.parse?`: The same without the reason.

## Theorems

* `Address.text_eq`: The written form is the column's letters and then the row number.
* `Address.ofIndices?_eq_some_iff`, `Address.ofInts?_eq_some_iff`: A position is found exactly for
  indices in the grid.
-/

namespace Worksheet

/-- A position in the grid, column and row counted from zero. -/
@[ext]
structure Address where
  /-- The column, `A` being 0. -/
  col : Nat
  /-- The row, the row written 1 being 0. -/
  row : Nat
  /-- The column lies in the grid. -/
  col_lt : col < Column.limit
  /-- The row lies in the grid. -/
  row_lt : row < Column.limit
  deriving DecidableEq, Repr

namespace Address

/-- The position with the given indices, if it lies in the grid. -/
def ofIndices? (col row : Nat) : Option Address :=
  if h : col < Column.limit ∧ row < Column.limit then some ⟨col, row, h.1, h.2⟩ else none

/-- The position with the given indices, each taken modulo the size of the grid. -/
def ofIndices (col row : Nat) : Address where
  col := col % Column.limit
  row := row % Column.limit
  col_lt := Nat.mod_lt col (by decide)
  row_lt := Nat.mod_lt row (by decide)

/-- The position with the given indices, if neither is negative or beyond the grid. -/
def ofInts? (col row : Int) : Option Address :=
  if col < 0 ∨ row < 0 then none else ofIndices? col.toNat row.toNat

/-- The characters of the written form. -/
def chars (a : Address) : List Char := Column.letters (a.col + 1) ++ Decimal.digits (a.row + 1)

/-- The written form: the column's letters, then the row number. -/
def text (a : Address) : String := String.ofList a.chars

/-- The row index that a run of digits denotes, where the written row counts from one. -/
def readRow (whole digits : List Char) : Except Error { row : Nat // row < Column.limit } :=
  match Decimal.value digits with
  | 0 => .error (.rowZero (String.ofList whole))
  | row + 1 =>
    if h : row < Column.limit then .ok ⟨row, h⟩
    else .error (.rowBeyondGrid (String.ofList whole))

/-- The column index that letters spell. -/
def readColumn (letters : List Char) : Except Error { col : Nat // col < Column.limit } :=
  match h : Column.read letters with
  | .error e => .error e
  | .ok number => .ok ⟨number - 1, by have := Column.read_bounds h; omega⟩

/-- The position that characters name: letters, then digits, and nothing else. -/
def ofChars (whole : List Char) : Except Error Address :=
  let letters := whole.takeWhile Char.isAlpha
  let digits := whole.dropWhile Char.isAlpha
  if letters.isEmpty || digits.isEmpty then
    .error (.shape (String.ofList whole))
  else if digits.all Char.isDigit then do
    let col ← readColumn letters
    let row ← readRow whole digits
    return ⟨col.1, row.1, col.2, row.2⟩
  else
    .error (.trailing (String.ofList whole))

/-- The position that a text names, or why it names none. -/
def parse (s : String) : Except Error Address := ofChars s.toList

/-- The position that characters name, if they name one. -/
def ofChars? (cs : List Char) : Option Address := (ofChars cs).toOption

/-- The position that a text names, if it names one. -/
def parse? (s : String) : Option Address := ofChars? s.toList

theorem text_eq (a : Address) :
    a.text.toList = Column.letters (a.col + 1) ++ Decimal.digits (a.row + 1) :=
  String.toList_ofList

theorem ofIndices?_eq_some_iff {col row : Nat} {a : Address} :
    ofIndices? col row = some a ↔ a.col = col ∧ a.row = row := by
  rw [ofIndices?]
  constructor
  · intro h
    split at h
    · cases h
      exact ⟨rfl, rfl⟩
    · cases h
  · rintro ⟨rfl, rfl⟩
    rw [dif_pos ⟨a.col_lt, a.row_lt⟩]

theorem ofInts?_eq_some_iff {col row : Int} {a : Address} :
    ofInts? col row = some a ↔ (a.col : Int) = col ∧ (a.row : Int) = row := by
  rw [ofInts?]
  by_cases hneg : col < 0 ∨ row < 0
  · rw [if_pos hneg]
    refine iff_of_false (by simp) ?_
    omega
  · rw [if_neg hneg, ofIndices?_eq_some_iff]
    omega

end Address

end Worksheet
