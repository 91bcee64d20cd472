import Std.Data.HashMap
import Worksheet.Range.Basic
import Worksheet.Snapshot.Numeral
import Worksheet.Table.View

/-!
# Snapshots

What formulas are evaluated against: the numbers of the data rows in a rectangular grid, and the
formulas of the cells that have one, under the written forms of their addresses. Total rows are left
out and the remaining rows are numbered consecutively. A cell with a formula has no number, so a
result displayed earlier is never read as data.

## Main definitions

* `Snapshot`: A grid of numbers and the formulas of its cells.
* `Snapshot.ofRows`: The snapshot of given rows, filled up to one width.
* `View.snapshot`: The snapshot of a table.
* `Snapshot.contains`, `Snapshot.value?`, `Snapshot.formula?`: What is known about a cell.
* `lastIndex`: Where a walk over a range ends along one side, computed with words of 32 bits.
* `Snapshot.cellsOf`: The cells of a range that lie in the snapshot, row by row.

## Theorems

* `Snapshot.height_snapshot`: A snapshot has a row for each data row.
-/

namespace Worksheet

/-- Numbers in a grid, and formulas under the written forms of the addresses of their cells. -/
structure Snapshot where
  /-- The numbers, row by row; cells that are empty, not numeric or computed have none. -/
  rows : List (List (Option Float))
  /-- The number of columns. -/
  width : Nat
  /-- The formulas. -/
  formulas : Std.HashMap String String
  /-- Every row has all columns. -/
  length_eq : ∀ row ∈ rows, row.length = width

namespace Snapshot

/-- The width of the widest row. -/
def widest (rows : List (List (Option Float))) : Nat := (rows.map List.length).foldl max 0

/-- A row filled up with empty cells. -/
def filled (width : Nat) (row : List (Option Float)) : List (Option Float) :=
  row ++ List.replicate (width - row.length) none

theorem le_foldl_max (ns : List Nat) (m : Nat) :
    m ≤ ns.foldl max m ∧ ∀ n ∈ ns, n ≤ ns.foldl max m := by
  induction ns generalizing m with
  | nil => exact ⟨Nat.le_refl _, fun _ h => nomatch h⟩
  | cons k rest ih =>
    obtain ⟨hm, hrest⟩ := ih (max m k)
    refine ⟨Nat.le_trans (Nat.le_max_left _ _) hm, fun n hn => ?_⟩
    rcases List.mem_cons.1 hn with rfl | hn
    · exact Nat.le_trans (Nat.le_max_right _ _) hm
    · exact hrest n hn

theorem length_le_widest {rows : List (List (Option Float))} {row : List (Option Float)}
    (h : row ∈ rows) : row.length ≤ widest rows :=
  (le_foldl_max _ 0).2 _ (List.mem_map_of_mem h)

/-- The snapshot of given rows and formulas; every row is filled up to the width of the widest. -/
def ofRows (rows : List (List (Option Float))) (formulas : Std.HashMap String String) :
    Snapshot where
  rows := rows.map (filled (widest rows))
  width := widest rows
  formulas := formulas
  length_eq := by
    intro row hrow
    obtain ⟨given, hgiven, rfl⟩ := List.mem_map.1 hrow
    have := length_le_widest hgiven
    rw [filled, List.length_append, List.length_replicate]
    omega

/-- The snapshot of no rows at all. -/
def empty : Snapshot := ofRows [] ∅

/-- The number of rows. -/
def height (s : Snapshot) : Nat := s.rows.length

/-- Whether a cell lies in the snapshot. -/
def contains (s : Snapshot) (a : Address) : Bool := a.row < s.height && a.col < s.width

/-- The number in a cell, if it has one. -/
def value? (s : Snapshot) (a : Address) : Option Float := do
  let row ← s.rows[a.row]?
  (← row[a.col]?)

/-- The formula of a cell, if it has one. -/
def formula? (s : Snapshot) (a : Address) : Option String := s.formulas[a.text]?

end Snapshot

namespace View

/-- The number in a cell as a calculation sees it; a computed cell has none. -/
def Cell.number? (c : Cell) : Option Float :=
  if c.computed?.isSome then none else readNumber c.text

/-- The formulas of a row with the written forms of the addresses of their cells. -/
def Row.formulas (r : Row) (index : Nat) : List (String × String) :=
  r.cells.zipIdx.filterMap fun (c, col) =>
    c.computed?.map fun formula => ((Address.ofIndices col index).text, formula)

/-- The formulas of the data rows with the written forms of the addresses of their cells. -/
def formulas (v : View) : List (String × String) :=
  v.dataRows.zipIdx.flatMap fun (r, index) => r.formulas index

/-- The snapshot of a table: its data rows, numbered consecutively. -/
def snapshot (v : View) : Snapshot :=
  .ofRows (v.dataRows.map fun r => r.cells.map Cell.number?) (.ofList v.formulas)

end View

/-- The last index of a walk along one side of a snapshot, in a word of 32 bits: where the range
    ends, or the last of so many indices if that comes first. The number of indices is cut to a word
    before one is subtracted, so a side that is too long for the grid is walked only in part. -/
def lastIndex (last count : Nat) : UInt32 := min (UInt32.ofNat last) (UInt32.ofNat count - 1)

/-- The indices of a walk along one side. -/
def indices (first last : Nat) : List Nat := List.range' first (last + 1 - first)

namespace Snapshot

/-- The cells of a range that a walk over it visits, left to right and then top to bottom: those in
    the snapshot, up to its last row and its last column. -/
def cellsOf (s : Snapshot) (r : Range) : List Address :=
  if s.height = 0 ∨ s.width = 0 then []
  else
    let rows := indices r.first.row (lastIndex r.last.row s.height).toNat
    let cols := indices r.first.col (lastIndex r.last.col s.width).toNat
    rows.flatMap fun row => cols.map fun col => Address.ofIndices col row

theorem height_snapshot (v : View) : v.snapshot.height = v.dataRows.length := by
  simp only [View.snapshot, ofRows, height, List.length_map]

end Snapshot

end Worksheet
