import Worksheet.Display
import Worksheet.Evaluation.Cell

/-!
# Recalculation

One pass over a table evaluates every formula in document order, total rows included. References in
formulas count data rows only, so a formula is evaluated at the position of its row among the data
rows. Total rows take the positions behind the last data row, where no reference finds them: a
total never sees itself in the rows it adds up.

The pass may share one cache among all formulas or give each its own. The results are kept in a
report, with positions in the document, and can be written back into the table as displayed text.

## Main definitions

* `RecalculationOptions`: How results are shown, and whether the cache is shared.
* `Placement`: Where a row stands in the document and where its formulas are evaluated.
* `View.placements`, `View.formulaCells`: The placed rows, and the formulas in them.
* `CellResult`, `Report`: The result of one formula, and of all of them.
* `View.recalculate`: The report of a pass.
* `Report.apply`: The table with the results written into it.
* `Report.statistics`: How many formulas there were and how they ended.

## Theorems

* `evaluateAll_length`: Each formula has one result.
* `Report.statistics_eq`: The statistics are counts over the results.
-/

namespace Worksheet

/-- How a pass is made. -/
structure RecalculationOptions where
  /-- How results are shown. -/
  style : DisplayStyle := {}
  /-- Whether all formulas of the pass share one cache. -/
  shareCache : Bool := true
  deriving DecidableEq, Repr

/-- A row of a table with its place in the document and the place its formulas are evaluated at. -/
structure Placement where
  /-- The row. -/
  row : View.Row
  /-- Its index in the document. -/
  documentRow : Nat
  /-- The index of the row its formulas are evaluated at. -/
  evaluationRow : Nat

/-- A formula with its place in the document and the place it is evaluated at. -/
structure FormulaCell where
  /-- Where the cell stands in the document. -/
  address : Address
  /-- Where the formula is evaluated. -/
  position : Address
  /-- Whether the cell stands in a total row. -/
  isTotal : Bool
  /-- The formula. -/
  formula : String

/-- What became of one formula. -/
structure CellResult where
  /-- Where the cell stands in the document. -/
  address : Address
  /-- Whether the cell stands in a total row. -/
  isTotal : Bool
  /-- The formula. -/
  formula : String
  /-- Its value. -/
  outcome : Outcome
  /-- The text shown for the value. -/
  display : String

/-- What became of all formulas of a table, in document order. -/
structure Report where
  /-- The results in document order. -/
  cells : List CellResult

/-- How many formulas a pass met, and how they ended. -/
structure Statistics where
  /-- How many formulas there were. -/
  formulas : Nat := 0
  /-- How many of them have a value, or are references to empty cells. -/
  calculated : Nat := 0
  /-- How many of them failed. -/
  errors : Nat := 0
  /-- How many failed because of a circular reference. -/
  circular : Nat := 0
  deriving DecidableEq, Repr

namespace View

/-- The rows from a document index on, where the next data row and the next total row are evaluated
    at the given indices. -/
def placementsFrom (documentRow dataRow totalRow : Nat) : List Row → List Placement
  | [] => []
  | r :: rest =>
    if r.isTotal then
      ⟨r, documentRow, totalRow⟩ :: placementsFrom (documentRow + 1) dataRow (totalRow + 1) rest
    else
      ⟨r, documentRow, dataRow⟩ :: placementsFrom (documentRow + 1) (dataRow + 1) totalRow rest

/-- All rows with their places: data rows count from zero, and total rows go on behind them. -/
def placements (v : View) : List Placement := placementsFrom 0 0 v.dataRows.length v.rows

end View

namespace Placement

/-- The formulas of a placed row, from left to right. -/
def formulaCells (p : Placement) : List FormulaCell :=
  p.row.cells.zipIdx.filterMap fun (c, col) =>
    c.computed?.map fun formula =>
      { address := Address.ofIndices col p.documentRow
        position := Address.ofIndices col p.evaluationRow
        isTotal := p.row.isTotal
        formula := formula }

end Placement

/-- Evaluate formulas one after another. With a shared cache each finds what those before it left
    behind. -/
def evaluateAll (s : Snapshot) (options : RecalculationOptions) (cache : Cache) :
    List FormulaCell → List CellResult
  | [] => []
  | cell :: rest =>
    let (outcome, after) := s.evaluate cell.formula cell.position cache
    { address := cell.address
      isTotal := cell.isTotal
      formula := cell.formula
      outcome := outcome
      display := options.style.render outcome } ::
        evaluateAll s options (if options.shareCache then after else ∅) rest

namespace View

/-- The formulas of a table in document order. -/
def formulaCells (v : View) : List FormulaCell := v.placements.flatMap Placement.formulaCells

/-- Evaluate every formula of a table. -/
def recalculate (v : View) (options : RecalculationOptions) : Report :=
  ⟨evaluateAll v.snapshot options ∅ v.formulaCells⟩

end View

namespace CellResult

/-- Whether the formula failed. -/
def isError (c : CellResult) : Bool :=
  match c.outcome with
  | .ok _ => false
  | .error _ => true

/-- Whether the formula failed because of a circular reference. -/
def isCircular (c : CellResult) : Bool :=
  match c.outcome with
  | .ok _ => false
  | .error e => e.isCircular

end CellResult

/-- The statistics after one more formula. -/
def Statistics.record (s : Statistics) (c : CellResult) : Statistics :=
  match c.outcome with
  | .ok _ => { s with formulas := s.formulas + 1, calculated := s.calculated + 1 }
  | .error e =>
    { s with
      formulas := s.formulas + 1
      errors := s.errors + 1
      circular := if e.isCircular then s.circular + 1 else s.circular }

namespace Report

/-- The result of the cell at a place in the document. -/
def cell? (r : Report) (a : Address) : Option CellResult := r.cells.find? (·.address == a)

/-- The cells that failed. -/
def errors (r : Report) : List CellResult := r.cells.filter CellResult.isError

/-- How many formulas there were and how they ended, recorded one after another. -/
def statistics (r : Report) : Statistics := r.cells.foldl Statistics.record {}

/-- The table with every result shown in its cell. -/
def apply (r : Report) (t : Table) : Table :=
  r.cells.foldl
    (fun t c => t.updateCell c.address.col c.address.row (·.withDisplayText c.display)) t

end Report

/-- The table with all formulas evaluated and shown, and how they ended. -/
def Table.recalculated (t : Table) (options : RecalculationOptions) : Table × Statistics :=
  let report := t.view.recalculate options
  (report.apply t, report.statistics)

theorem evaluateAll_length (s : Snapshot) (options : RecalculationOptions) (cache : Cache)
    (cells : List FormulaCell) : (evaluateAll s options cache cells).length = cells.length := by
  induction cells generalizing cache with
  | nil => rfl
  | cons cell rest ih =>
    rw [evaluateAll, List.length_cons, List.length_cons, ih]

theorem Statistics.record_eq (s : Statistics) (c : CellResult) :
    s.record c =
      { formulas := s.formulas + 1
        calculated := s.calculated + if (!c.isError) = true then 1 else 0
        errors := s.errors + if c.isError = true then 1 else 0
        circular := s.circular + if c.isCircular = true then 1 else 0 } := by
  rw [record, CellResult.isError, CellResult.isCircular]
  cases c.outcome with
  | ok _ => rfl
  | error e =>
    dsimp only
    split <;> rfl

theorem Statistics.foldl_record (cells : List CellResult) (s : Statistics) :
    cells.foldl record s =
      { formulas := s.formulas + cells.length
        calculated := s.calculated + cells.countP (!·.isError)
        errors := s.errors + cells.countP CellResult.isError
        circular := s.circular + cells.countP CellResult.isCircular } := by
  induction cells generalizing s with
  | nil => rfl
  | cons c rest ih =>
    rw [List.foldl_cons, ih, record_eq]
    simp only [List.length_cons, List.countP_cons, Nat.add_assoc, Nat.add_comm, Nat.add_left_comm]

theorem Report.statistics_eq (r : Report) :
    r.statistics =
      { formulas := r.cells.length
        calculated := r.cells.countP (!·.isError)
        errors := r.cells.countP CellResult.isError
        circular := r.cells.countP CellResult.isCircular } := by
  rw [statistics, Statistics.foldl_record]
  simp only [Nat.zero_add]

end Worksheet
