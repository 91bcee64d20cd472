import Worksheet.Table.Basic

/-!
# Views of a table

What a calculation sees of a table: for each row whether it is a total row, and for each of its
cells a formula and a text. Whatever supplies a formula, it counts only if it starts with the equals
sign; a cell without such a formula is data and its text is read.

## Main definitions

* `View`: The rows and cells of a table as a calculation sees them.
* `View.Cell.computed?`: The formula that a cell is computed by.
* `View.dataRows`: The rows that are not total rows.
* `Table.view`: A table with the formulas that start with `=`.
* `Table.viewWith`: A table with the formulas that a function reports.

## Theorems

* `View.Cell.isFormula_of_computed?`: What a cell is computed by starts with the equals sign.
-/

namespace Worksheet

namespace View

/-- A cell as a calculation sees it. -/
structure Cell where
  /-- The formula of the cell as the table reports it. -/
  formula : Option String
  /-- The displayed text. -/
  text : String
  deriving DecidableEq, Repr, Inhabited

/-- A row as a calculation sees it. -/
structure Row where
  /-- Whether the row only receives results. -/
  isTotal : Bool
  /-- The cells in column order. -/
  cells : List Cell
  deriving DecidableEq, Repr, Inhabited

/-- The formula that a cell is computed by: the reported one if it starts with `=`. -/
def Cell.computed? (c : Cell) : Option String := c.formula.filter isFormula

end View

/-- A table as a calculation sees it: its rows in document order. -/
structure View where
  /-- The rows in document order. -/
  rows : List View.Row
  deriving DecidableEq, Repr, Inhabited

namespace View

/-- The rows that are not total rows, in document order. -/
def dataRows (v : View) : List Row := v.rows.filter fun r => !r.isTotal

theorem Cell.isFormula_of_computed? {c : Cell} {formula : String}
    (h : c.computed? = some formula) : isFormula formula = true :=
  (Option.filter_eq_some_iff.1 h).2

end View

namespace Table

/-- A table seen through a function that reports the formula of a cell. -/
def viewWith (formulaOf : Cell → Option String) (t : Table) : View where
  rows := t.rows.map fun r =>
    ⟨r.isTotal, r.cells.map fun c => ⟨formulaOf c, c.displayText⟩⟩

/-- A table with the formulas that start with `=`. -/
def view (t : Table) : View := t.viewWith Cell.source?

end Table

end Worksheet
