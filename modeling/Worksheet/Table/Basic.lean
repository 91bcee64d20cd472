import Worksheet.Table.Content
import Worksheet.Text.Blank

/-!
# Tables

A table holds rows of cells. Rows may differ in width, and a row may be marked as a total row, which
receives results but is not part of the data. A cell has content to display and may have a formula;
a stored formula only counts as one if it starts with the equals sign.

## Main definitions

* `Cell`: Content and possibly a formula.
* `Cell.ofInput`: The cell for a typed text, which is a formula if it starts with `=`.
* `Cell.source?`: The formula of the cell, if it starts with `=`.
* `Row`, `Table`: Cells in column order, and rows in document order.
* `Table.cell?`, `Table.updateCell`: Access to the cell at a column and a row.
* `Table.width`: The width of the widest row.
-/

namespace Worksheet

/-- Whether a text is a formula, that is starts with the equals sign. -/
def isFormula (text : String) : Bool := text.toList.head? == some '='

/-- A table cell: what it displays, and the formula it is computed by, if any. -/
structure Cell where
  /-- What is displayed. -/
  content : Content := Content.empty
  /-- The stored formula. -/
  formula : Option String := none
  deriving Inhabited

namespace Cell

/-- A cell that shows a text. -/
def ofText (text : String) : Cell := ⟨.run text, none⟩

/-- A cell with a formula that has not been computed yet. -/
def ofFormula (formula : String) : Cell := ⟨.empty, some formula⟩

/-- The cell for a typed text: a formula if it starts with `=` after blanks, else the text as is. -/
def ofInput (input : String) : Cell :=
  if (Text.trimStart input.toList).head? = some '=' then
    ofFormula (String.ofList (Text.trim input.toList))
  else
    ofText input

/-- The formula of the cell, if what is stored as such starts with `=`. -/
def source? (c : Cell) : Option String := c.formula.filter isFormula

/-- The displayed text. -/
def displayText (c : Cell) : String := c.content.plainText

/-- The cell showing another text; the formula stays. -/
def withDisplayText (c : Cell) (text : String) : Cell := { c with content := .run text }

end Cell

/-- A table row: its cells, and whether it is reserved for totals. -/
structure Row where
  /-- The cells in column order. -/
  cells : List Cell := []
  /-- Whether the row only receives results. -/
  isTotal : Bool := false
  deriving Inhabited

/-- A table: its rows in document order. -/
structure Table where
  /-- The rows in document order. -/
  rows : List Row := []
  deriving Inhabited

namespace Table

/-- The cell in a column of a row, both counted from zero in the document. -/
def cell? (t : Table) (col row : Nat) : Option Cell := do
  let r ← t.rows[row]?
  r.cells[col]?

/-- Replace the cell in a column of a row by a function of it; nothing happens where there is
    none. -/
def updateCell (t : Table) (col row : Nat) (f : Cell → Cell) : Table where
  rows := t.rows.modify row fun r => { r with cells := r.cells.modify col f }

/-- Apply a function to every cell. -/
def mapCells (t : Table) (f : Cell → Cell) : Table where
  rows := t.rows.map fun r => { r with cells := r.cells.map f }

/-- The width of the widest row. -/
def width (t : Table) : Nat := (t.rows.map fun r => r.cells.length).foldl max 0

/-- The number of cells that have a formula. -/
def formulaCount (t : Table) : Nat :=
  (t.rows.flatMap Row.cells).countP fun c => c.source?.isSome

/-- The number of total rows. -/
def totalRowCount (t : Table) : Nat := t.rows.countP Row.isTotal

end Table

end Worksheet
