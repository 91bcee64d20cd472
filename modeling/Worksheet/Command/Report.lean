import Worksheet.Command.Output
import Worksheet.Json
import Worksheet.Recalculation

/-!
# Reports of a pass

How a report is shown: as a few lines with the number of formulas and the errors, or as JSON with
the result of every formula.

## Main definitions

* `Report.summary`: The lines with the number of formulas and the errors.
* `CellResult.json`, `Report.json`: A result and a report as JSON.

## Theorems

* `Report.length_errorLines`: Each error has a line.
-/

namespace Worksheet

/-- The text shown for the error of a formula that failed. -/
def CellResult.errorText? (c : CellResult) : Option String :=
  match c.outcome with
  | .ok _ => none
  | .error e => some e.message

/-- The line for a formula that failed. -/
def CellResult.errorLine (c : CellResult) : String :=
  "  " ++ c.address.text ++ ": " ++ c.formula ++ " -> " ++ c.errorText?.getD ""

/-- A result as JSON. A value is a number or missing, and only a failure has an error. -/
def CellResult.json (c : CellResult) : Json :=
  let value :=
    match c.outcome with
    | .ok (some x) => .float x
    | _ => .null
  let error :=
    match c.errorText? with
    | some message => [("error", Json.text message)]
    | none => []
  .object
    ([("cell", .text c.address.text), ("total_row", .bool c.isTotal), ("formula", .text c.formula),
      ("value", value), ("display", .text c.display)] ++ error)

namespace Report

/-- The lines for the formulas that failed. -/
def errorLines (r : Report) : List String := r.errors.map CellResult.errorLine

/-- The lines with the number of formulas and the errors. -/
def summary (r : Report) : String :=
  let s := r.statistics
  Command.lines
    (("Calculated " ++ Nat.repr s.formulas ++ " formulas (" ++ Nat.repr s.errors ++ " errors, "
      ++ Nat.repr s.circular ++ " circular)") :: r.errorLines)

/-- A report as JSON. -/
def json (r : Report) : Json :=
  let s := r.statistics
  .object
    [("formulas", .nat s.formulas), ("calculated", .nat s.calculated), ("errors", .nat s.errors),
      ("circular_references", .nat s.circular), ("cells", .array (r.cells.map CellResult.json))]

theorem length_errorLines (r : Report) : r.errorLines.length = r.statistics.errors := by
  rw [errorLines, List.length_map, errors, statistics_eq]
  exact List.countP_eq_length_filter.symm

end Report

end Worksheet
