import Worksheet.Decimal.Layout
import Worksheet.Evaluation.Cell
import Worksheet.Reference.Scan
import Worksheet.Sheet.Basic

/-!
# Describing sheets and formulas

A sheet is described by its columns and by how many rows and formulas it has. A formula is described
by its kind and by the references in it, and one without references also by its value.

## Main definitions

* `Sheet.description`: The lines that describe a sheet.
* `floatText`: A number written positionally, with as many digits as it needs.
* `Formula.description`: The lines that describe a formula.

## Theorems

* `description_of_malformed`: A malformed formula is described by what is wrong with it.
-/

namespace Worksheet

namespace Command

/-- The lines that describe a sheet in a file. -/
def Sheet.description (path : String) (s : Sheet) : List String :=
  let columns :=
    match s.headers with
    | some titles => ["Columns: " ++ ", ".intercalate titles]
    | none => []
  let totals := s.table.totalRowCount
  ("File: " ++ path) :: columns
    ++ ["Rows: " ++ Nat.repr (s.table.rows.length - totals) ++ " data, " ++ Nat.repr totals
        ++ " total (" ++ Nat.repr s.table.width ++ " columns)",
      "Formulas: " ++ Nat.repr s.table.formulaCount]

/-- A number written positionally, with as many digits as it needs. Of two equally near shortest
    decimals the upper one is written. -/
def floatText (x : Float) : String :=
  match Binary.ofFloat? x with
  | none => ""
  | some b =>
    String.ofList ((if b.negative then ['-'] else []) ++ (Decimal.shortest .up b).positional)

/-- The word for a kind of formula. -/
def kindName : Formula.Kind → String
  | .constant => "constant"
  | .expression => "expression"
  | .function => "function"

/-- The text for the value of a formula. -/
def outcomeText : Outcome → String
  | .ok (some x) => floatText x
  | .ok none => "none"
  | .error e => e.message

/-- The value of a formula where there are no cells. -/
def constantOutcome (text : String) : Outcome :=
  (Snapshot.empty.evaluate text (Address.ofIndices 0 0) ∅).1

/-- The lines that describe a formula, or what is wrong with it. -/
def formulaDescription (text : String) : List String :=
  match Formula.parse text with
  | .error cause => [(FormulaError.malformed cause).message]
  | .ok f =>
    let value :=
      match f.kind with
      | .constant => ["Value: " ++ outcomeText (constantOutcome text)]
      | _ => []
    ["Kind: " ++ kindName f.kind,
      "Tokens: " ++ Nat.repr f.tokens.length,
      "Cells: " ++ ", ".intercalate (Reference.cells text),
      "Ranges: " ++ ", ".intercalate (Reference.ranges text)] ++ value

theorem description_of_malformed {text : String} {cause : SyntaxError}
    (h : Formula.parse text = .error cause) :
    formulaDescription text = [(FormulaError.malformed cause).message] := by
  rw [formulaDescription, h]

end Command

end Worksheet
