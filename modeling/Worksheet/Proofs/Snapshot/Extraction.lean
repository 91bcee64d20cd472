import Worksheet.Proofs.Address.RoundTrip
import Worksheet.Proofs.Evaluation.Meaning
import Worksheet.Snapshot.Basic

/-!
# The snapshot of a table

What the snapshot of a table has at an address is read off the cell of the table at these indices,
as long as the table fits the grid: no address then stands for two cells, so each formula is found
under the written form of its own one.

## Main definitions

* `View.Fits`: A table with no more data rows and columns than the grid.
* `View.cellAt?`: The cell of the data rows with given indices.

## Theorems

* `mem_of_getElem?_ofList`, `getElem?_ofList_iff`: The entries of a map made of a list.
* `View.getElem?_formulas_iff`: The entries of the map of formulas.
* `View.formula?_snapshot_iff`, `View.value?_snapshot`: What the snapshot has at an address.
* `View.computes_snapshot_iff`: A cell computes in the snapshot what it is computed by in the table.
* `Snapshot.computes_ofRows`: The same for given rows and a list of formulas.
-/

namespace Worksheet

/-- What a table looks up was among the pairs it was made from. -/
theorem mem_of_getElem?_ofList {l : List (String × String)} {k x : String}
    (h : (Std.HashMap.ofList l)[k]? = some x) : (k, x) ∈ l := by
  -- The last entry with the key is the one that is kept, so it is found from the end.
  rw [Std.HashMap.ofList_eq_insertMany_empty, Std.HashMap.getElem?_insertMany_list,
    Std.HashMap.getElem?_empty, Option.or_none, List.findSomeRev?_eq_findSome?_reverse] at h
  rcases List.exists_of_findSome?_eq_some h with ⟨⟨k', y⟩, hentry, hy⟩
  dsimp only at hy
  by_cases hk : (k' == k) = true
  · rw [if_pos hk, Option.some.injEq] at hy
    rw [← beq_iff_eq.1 hk, ← hy]
    exact List.mem_reverse.1 hentry
  · rw [if_neg hk] at hy
    cases hy

-- A map made of entries that agree whenever their keys do.
theorem getElem?_ofList_iff {l : List (String × String)} {k x : String}
    (h : ∀ k x y, (k, x) ∈ l → (k, y) ∈ l → x = y) :
    (Std.HashMap.ofList l)[k]? = some x ↔ (k, x) ∈ l := by
  constructor
  · exact mem_of_getElem?_ofList
  · intro hx
    have hkey : k ∈ Std.HashMap.ofList l := by
      rw [Std.HashMap.mem_ofList, List.contains_iff_mem]
      exact List.mem_map_of_mem hx
    rw [Std.HashMap.mem_iff_isSome_getElem?, Option.isSome_iff_exists] at hkey
    rcases hkey with ⟨y, hy⟩
    rw [hy, h k x y hx (mem_of_getElem?_ofList hy)]

namespace Address

/-- Indices in the grid are told from their address. -/
theorem ofIndices_eq_iff {col row : Nat} {a : Address} (hcol : col < Column.limit)
    (hrow : row < Column.limit) : ofIndices col row = a ↔ col = a.col ∧ row = a.row := by
  rw [Address.ext_iff, ofIndices]
  simp only [Nat.mod_eq_of_lt hcol, Nat.mod_eq_of_lt hrow]

end Address

namespace View

/-- The data rows, and the columns in each, are no more than the grid has. -/
structure Fits (v : View) : Prop where
  /-- Every data row has an index in the grid. -/
  rows : v.dataRows.length ≤ Column.limit
  /-- So has every cell in it. -/
  cols : ∀ r ∈ v.dataRows, r.cells.length ≤ Column.limit

/-- The cell of the data rows with given indices. -/
def cellAt? (v : View) (col row : Nat) : Option Cell :=
  v.dataRows[row]?.bind fun r => r.cells[col]?

variable {v : View} {col row : Nat} {a : Address} {c : Cell} {text : String}

theorem pairwise_zipIdx {α : Type} (l : List α) : l.zipIdx.Pairwise fun p q => p.2 < q.2 := by
  have hindices : (l.zipIdx.map Prod.snd).Pairwise (· < ·) := by
    rw [List.zipIdx_map_snd]
    exact List.pairwise_lt_range'
  exact List.pairwise_map.1 hindices

/-- In a view that fits the grid, every cell has indices in the grid. -/
theorem Fits.lt (h : v.Fits) (hcell : v.cellAt? col row = some c) :
    col < Column.limit ∧ row < Column.limit := by
  rcases Option.bind_eq_some_iff.1 hcell with ⟨r, hr, hc⟩
  rcases List.getElem?_eq_some_iff.1 hr with ⟨hrow, _⟩
  rcases List.getElem?_eq_some_iff.1 hc with ⟨hcol, _⟩
  exact ⟨Nat.lt_of_lt_of_le hcol (h.cols r (List.mem_of_getElem? hr)),
    Nat.lt_of_lt_of_le hrow h.rows⟩

/-- The extracted formulas are what the cells compute, under the text of where they stand. -/
theorem mem_formulas_iff {k : String} : (k, text) ∈ v.formulas ↔
    ∃ col row c, v.cellAt? col row = some c ∧ c.computed? = some text ∧
      k = (Address.ofIndices col row).text := by
  unfold formulas cellAt?
  rw [List.mem_flatMap]
  constructor
  · -- An entry comes from a cell together with its place in its row and the place of the row.
    rintro ⟨⟨r, row⟩, hr, hentry⟩
    rcases List.mem_filterMap.1 hentry with ⟨⟨c, col⟩, hc, hformula⟩
    rcases Option.map_eq_some_iff.1 hformula with ⟨text', htext, hpair⟩
    rw [List.mk_mem_zipIdx_iff_getElem?] at hr hc
    cases hpair
    exact ⟨col, row, c, Option.bind_eq_some_iff.2 ⟨r, hr, hc⟩, htext, rfl⟩
  · rintro ⟨col, row, c, hcell, htext, rfl⟩
    rcases Option.bind_eq_some_iff.1 hcell with ⟨r, hr, hc⟩
    refine ⟨(r, row), List.mk_mem_zipIdx_iff_getElem?.2 hr, List.mem_filterMap.2 ⟨(c, col), ?_, ?_⟩⟩
    · exact List.mk_mem_zipIdx_iff_getElem?.2 hc
    · exact Option.map_eq_some_iff.2 ⟨text, htext, rfl⟩

/-- In a table that fits, only the cell at an address has an entry under its written form. -/
theorem text_mem_formulas_iff (h : v.Fits) : (a.text, text) ∈ v.formulas ↔
    ∃ c, v.cellAt? a.col a.row = some c ∧ c.computed? = some text := by
  rw [mem_formulas_iff]
  constructor
  · rintro ⟨col, row, c, hcell, htext, hkey⟩
    have hsame := Address.text_injective hkey.symm
    -- Indices of a table that fits are not reduced, so the key gives them back.
    rw [Address.ofIndices_eq_iff (h.lt hcell).1 (h.lt hcell).2] at hsame
    rw [hsame.1, hsame.2] at hcell
    exact ⟨c, hcell, htext⟩
  · rintro ⟨c, hcell, htext⟩
    exact ⟨a.col, a.row, c, hcell, htext, by rw [Address.ofIndices_self]⟩

-- Two entries with one key are entries of one cell.
theorem eq_of_mem_formulas (h : v.Fits) :
    ∀ k x y, (k, x) ∈ v.formulas → (k, y) ∈ v.formulas → x = y := by
  intro k x y hx hy
  rcases mem_formulas_iff.1 hx with ⟨col, row, _, _, _, rfl⟩
  rcases (text_mem_formulas_iff h).1 hx with ⟨c, hcell, htext⟩
  rcases (text_mem_formulas_iff h).1 hy with ⟨c', hcell', htext'⟩
  rw [hcell, Option.some.injEq] at hcell'
  rw [← hcell', htext, Option.some.injEq] at htext'
  exact htext'

/-- The map of formulas has the entries that the table lists, under any key. -/
theorem getElem?_formulas_iff (h : v.Fits) {k : String} :
    v.snapshot.formulas[k]? = some text ↔ (k, text) ∈ v.formulas :=
  getElem?_ofList_iff (eq_of_mem_formulas h)

/-- A formula of the snapshot is what the cell at that place computes. -/
theorem formula?_snapshot_iff (h : v.Fits) :
    v.snapshot.formula? a = some text ↔
      ∃ c, v.cellAt? a.col a.row = some c ∧ c.computed? = some text := by
  rw [Snapshot.formula?, getElem?_formulas_iff h, text_mem_formulas_iff h]

/-- Rows are filled up with cells that have no number, so the table alone decides. -/
theorem value?_snapshot : v.snapshot.value? a = (v.cellAt? a.col a.row).bind Cell.number? := by
  unfold Snapshot.value? cellAt?
  change (((v.dataRows.map _).map (Snapshot.filled _))[a.row]?.bind fun row => _) = _
  rw [List.getElem?_map, List.getElem?_map]
  cases v.dataRows[a.row]? with
  | none => rfl
  | some r =>
      simp only [Option.map_some, Option.bind_some, Snapshot.filled]
      by_cases hcol : a.col < r.cells.length
      · rw [List.getElem?_append_left (by simpa only [List.length_map] using hcol),
          List.getElem?_map, List.getElem?_eq_getElem hcol]
        rfl
      · have hbehind : r.cells.length ≤ a.col := Nat.le_of_not_lt hcol
        rw [List.getElem?_append_right (by simpa only [List.length_map] using hbehind),
          List.getElem?_replicate, List.getElem?_eq_none hbehind]
        -- Behind its last cell a row is filled up, or has ended.
        split <;> rfl

/-- Every cell of the view lies inside its snapshot. -/
theorem contains_snapshot (h : v.cellAt? a.col a.row = some c) :
    v.snapshot.contains a = true := by
  rcases Option.bind_eq_some_iff.1 h with ⟨r, hr, hc⟩
  rcases List.getElem?_eq_some_iff.1 hr with ⟨hrow, _⟩
  rcases List.getElem?_eq_some_iff.1 hc with ⟨hcol, _⟩
  have hwidth : r.cells.length ≤ v.snapshot.width := by
    have hmem : r.cells.map Cell.number? ∈ v.dataRows.map fun r => r.cells.map Cell.number? :=
      List.mem_map_of_mem (List.mem_of_getElem? hr)
    have hle := Snapshot.length_le_widest hmem
    rw [List.length_map] at hle
    exact hle
  unfold Snapshot.contains
  rw [Snapshot.height_snapshot, Bool.and_eq_true, decide_eq_true_eq, decide_eq_true_eq]
  exact ⟨hrow, Nat.lt_of_lt_of_le hcol hwidth⟩

/-- A cell computes in the snapshot what it is computed by in the table. -/
theorem computes_snapshot_iff (h : v.Fits) :
    v.snapshot.Computes a text ↔
      ∃ c, v.cellAt? a.col a.row = some c ∧ c.computed? = some text := by
  constructor
  · exact fun hcomputes => (formula?_snapshot_iff h).1 hcomputes.formula?
  · rintro ⟨c, hcell, htext⟩
    refine ⟨contains_snapshot hcell, ?_, (formula?_snapshot_iff h).2 ⟨c, hcell, htext⟩⟩
    rw [value?_snapshot, hcell, Option.bind_some, Cell.number?, htext]
    rfl

end View

/-- A cell without a number computes the formula that is listed under its address. -/
theorem Snapshot.computes_ofRows {rows : List (List (Option Float))}
    {entries : List (String × String)} {a : Address} {text : String}
    (hcontains : (ofRows rows (.ofList entries)).contains a = true)
    (hvalue : (ofRows rows (.ofList entries)).value? a = none)
    (hdistinct : entries.Pairwise fun e e' => (e.1 == e'.1) = false)
    (hmem : (a.text, text) ∈ entries) : (ofRows rows (.ofList entries)).Computes a text :=
  ⟨hcontains, hvalue, Std.HashMap.getElem?_ofList_of_mem (beq_self_eq_true _) hdistinct hmem⟩

end Worksheet
