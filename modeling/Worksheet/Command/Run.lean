import Worksheet.Command.Inspect
import Worksheet.Command.Report
import Worksheet.Command.Request
import Worksheet.Sheet.File

/-!
# Running requests

Each request is answered with an output, and a recalculation may write a file. Files are loaded and
saved through a storage, so the same program runs on files in memory and on those of a system.

## Main definitions

* `RecalcRequest.run`: Recalculate a sheet.
* `Request.run`: Answer a request.
* `run`: Answer a command line.

## Theorems

* `run_of_usageError`: A command line that forms no request leaves all files alone.
-/

namespace Worksheet

namespace Command

variable {m : Type → Type} [Monad m]

/-- The failure to open a file. -/
def openFailure (path : String) (causes : List String) : Failure :=
  ⟨"Failed to open '" ++ path ++ "'", causes⟩

/-- The failure to write a file. -/
def writeFailure (path : String) (causes : List String) : Failure :=
  ⟨"Failed to write '" ++ path ++ "'", causes⟩

namespace RecalcRequest

/-- Write a report as JSON. -/
def writeReport (storage : Storage m) (r : RecalcRequest) (report : Report) : m Output := do
  let bytes := Text.encode (line report.json.pretty)
  match r.output with
  | none => return { err := report.summary, out := bytes }
  | some path =>
    match ← storage.save path bytes with
    | .ok () => return { err := report.summary }
    | .error cause =>
      return { err := report.summary : Output }.withFailure (writeFailure path [cause.message])

/-- Write a recalculated sheet with the delimiter of the extension of its file. On the standard
    output the delimiter is a comma. -/
def writeSheet (storage : Storage m) (r : RecalcRequest) (report : Report) (sheet : Sheet) :
    m Output := do
  let shown := { sheet with table := report.apply sheet.table }
  match r.output with
  | none => return { err := report.summary, out := shown.write {} }
  | some path =>
    match ← shown.saveAs storage path {} with
    | .ok () =>
      let note := "Wrote " ++ Nat.repr shown.table.rows.length ++ " rows to '" ++ path ++ "'"
      return { err := report.summary ++ line note }
    | .error cause =>
      return { err := report.summary : Output }.withFailure (writeFailure path cause.chain)

/-- Recalculate a sheet. -/
def run (storage : Storage m) (r : RecalcRequest) : m Output := do
  match ← Sheet.loadAs storage r.input r.readOptions with
  | .error cause => return ({} : Output).withFailure (openFailure r.input cause.chain)
  | .ok sheet =>
    let report := sheet.table.view.recalculate r.options
    if r.asJson then r.writeReport storage report else r.writeSheet storage report sheet

end RecalcRequest

/-- Describe a sheet. -/
def runInfo (storage : Storage m) (path : String) (totalMarker : Option String) : m Output := do
  match ← Sheet.loadAs storage path { totalMarker := totalMarker } with
  | .error cause => return ({} : Output).withFailure (openFailure path cause.chain)
  | .ok sheet => return .ofText (lines (Sheet.description path sheet))

/-- The name of the program and its version. -/
def versionText : String := "tabula 0.1.0"

/-- How the program is used. -/
def helpText : String :=
  lines
    ["Recalculate spreadsheet-style formulas in CSV tables",
      "",
      "Usage: tabula <COMMAND>",
      "",
      "Commands:",
      "  recalc  Recalculate every formula in a CSV/TSV file",
      "  info    Show information about a table file",
      "  check   Parse a formula and report its tokens and references",
      "  shift   Shift the references of a formula for a row/column insert or delete",
      "  help    Print this message or the help of the given subcommand(s)",
      "",
      "Options:",
      "  -h, --help     Print help",
      "  -V, --version  Print version"]

/-- Answer a request. -/
def Request.run (storage : Storage m) : Request → m Output
  | .recalc request => request.run storage
  | .info path totalMarker => runInfo storage path totalMarker
  | .check formula => return .ofText (lines (formulaDescription formula))
  | .shift formula movement => return .ofText (line (movement.shiftText formula))
  | .version => return .ofText (line versionText)
  | .help => return .ofText helpText

/-- The output for a command line that forms no request. -/
def usageOutput (e : UsageError) : Output := { code := 2, err := line ("error: " ++ e.message) }

/-- Answer a command line. -/
def run (storage : Storage m) (words : List String) : m Output :=
  match Request.ofWords words with
  | .ok request => request.run storage
  | .error e => return usageOutput e

theorem run_of_usageError (storage : Storage m) {words : List String} {e : UsageError}
    (h : Request.ofWords words = .error e) : run storage words = pure (usageOutput e) := by
  rw [run, h]

end Command

end Worksheet
