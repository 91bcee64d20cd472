import Worksheet.Delimited.Decoding
import Worksheet.Delimited.Layout
import Worksheet.Sheet.Error
import Worksheet.Table.Basic

/-!
# Sheets

A sheet is a table with a header in front that is no part of it, so the first row of data is row 1
in formulas. Sheets are kept as delimited text. A field that starts with the equals sign is read as
a formula, and a row is a total row if its first field is the marker for totals. A formula is
written either as such or as the text it displays.

## Main definitions

* `Sheet`: A header and a table.
* `ReadOptions`, `WriteOptions`: How a sheet is read and written.
* `ReadOptions.isTotalMarker`: Whether a field marks a total row.
* `Sheet.read`: The sheet that bytes hold.
* `Sheet.records`: The fields written for a sheet.
* `Sheet.write`: The bytes written for a sheet.

## Theorems

* `Sheet.writtenText_of_data`: Data is written as the text it displays, whatever the options.
-/

namespace Worksheet

/-- A table with its header. -/
structure Sheet where
  /-- The titles of the columns, if there are any. -/
  headers : Option (List String) := none
  /-- The rows of data and totals. -/
  table : Table := {}
  deriving Inhabited

/-- How a sheet is read. -/
structure ReadOptions extends Delimited.Dialect where
  /-- Whether the first record is the header. -/
  hasHeader : Bool := true
  /-- The text of the first field of total rows, if there are such rows. -/
  totalMarker : Option String := none
  deriving DecidableEq, Repr

/-- How a sheet is written. -/
structure WriteOptions extends Delimited.Dialect where
  /-- Whether a header is written if there is one. -/
  writeHeader : Bool := true
  /-- Whether formulas are written as such. -/
  writeFormulas : Bool := false
  /-- How lines are ended. -/
  lineEnd : Delimited.LineEnd := .crlf
  deriving DecidableEq, Repr

/-- A text in small letters and without blanks around it, for comparison; only the letters `A` to
    `Z` have small forms here. -/
def folded (text : String) : List Char := (Text.trim text.toList).map Char.toLower

/-- Whether a field marks a total row, apart from blanks around it and the case of letters. -/
def ReadOptions.isTotalMarker (options : ReadOptions) (field : String) : Bool :=
  match options.totalMarker with
  | some marker => folded field == folded marker
  | none => false

/-- The row that fields form. -/
def ReadOptions.row (options : ReadOptions) (fields : List String) : Row where
  cells := fields.map Cell.ofInput
  isTotal := fields.head?.any options.isTotalMarker

namespace Sheet

/-- The rows of the records from the one with the given number on. -/
def readRows (options : ReadOptions) (number : Nat) :
    List (Except Delimited.Misencoded (List String)) → Except Error (List Row)
  | [] => .ok []
  | .error cause :: _ => .error (.record number (.misencoded cause))
  | .ok fields :: rest => (readRows options (number + 1) rest).map (options.row fields :: ·)

/-- The sheet that records hold. -/
def ofRecords (options : ReadOptions) :
    List (Except Delimited.Misencoded (List String)) → Except Error Sheet
  | [] => .ok {}
  | first :: rest =>
    if options.hasHeader then
      match first with
      | .error cause => .error (.header (.misencoded cause))
      | .ok fields => (readRows options 1 rest).map fun rows => ⟨some fields, ⟨rows⟩⟩
    else
      (readRows options 1 (first :: rest)).map fun rows => ⟨none, ⟨rows⟩⟩

/-- The sheet that bytes hold. -/
def read (options : ReadOptions) (bytes : Text.Bytes) : Except Error Sheet :=
  ofRecords options (options.texts bytes)

/-- The text written for a cell. -/
def writtenText (options : WriteOptions) (c : Cell) : String :=
  match c.source? with
  | some formula => if options.writeFormulas then formula else c.displayText
  | none => c.displayText

/-- The fields written for a sheet. -/
def records (options : WriteOptions) (s : Sheet) : List (List String) :=
  (if options.writeHeader then s.headers.toList else [])
    ++ s.table.rows.map fun r => r.cells.map (writtenText options)

/-- The bytes written for a sheet. -/
def write (options : WriteOptions) (s : Sheet) : Text.Bytes :=
  options.layout options.lineEnd ((s.records options).map fun fields => fields.map Text.encode)

theorem writtenText_of_data (options : WriteOptions) {c : Cell} (h : c.source? = none) :
    writtenText options c = c.displayText := by
  rw [writtenText, h]

end Sheet

end Worksheet
