import Mathlib.Data.List.Basic
import Worksheet.Proofs.Recalculation.Placement

/-!
# What a report says about its table

The report of a pass lists every formula of the document once, in document order, with the value it
has alone at the place of its row among the data rows or behind them. A formula of a data row is
evaluated in the cell of the snapshot that holds it, and a formula of a total row in no cell of the
snapshot. None of this depends on whether the formulas share a cache.

Documents may be larger than the grid, and then indices are reduced when they become addresses. All
statements here are about tables with fewer rows and columns than the grid has.

## Main definitions

* `View.InGrid`: A table with fewer rows and columns than the grid.
* `View.Addressed`: A table whose formulas have addresses of their own.
* `View.position`: The cell that a formula of the document is evaluated in.
* `Report.Describes`: What a report has to say about a table.

## Theorems

* `View.mem_recalculate_iff`: The results that a report has.
* `View.recalculate_describes`: The report of a pass describes the table, however it was made.
-/

namespace Worksheet

namespace View

/-- A table with fewer rows and columns than the grid. -/
structure InGrid (v : View) : Prop where
  /-- There are fewer rows, totals included. -/
  rows : v.rows.length < Column.limit
  /-- There are fewer cells in each row. -/
  cols : ∀ r ∈ v.rows, r.cells.length < Column.limit

/-- Every formula of the document stands at a place of the grid, so no index is reduced when it
    becomes the address of a result. -/
def Addressed (v : View) : Prop :=
  ∀ col row formula, v.formula? col row = some formula → col < Column.limit ∧ row < Column.limit

/-- The cell that a formula of the document is evaluated in. -/
def position (v : View) (a : Address) : Address := Address.ofIndices a.col (v.evaluationRow a.row)

/-- The result of a formula of the document, evaluated alone. -/
def resultAt (v : View) (style : DisplayStyle) (a : Address) (formula : String) : CellResult where
  address := a
  isTotal := v.isTotalAt a.row
  formula := formula
  outcome := (v.snapshot.evaluate formula (v.position a) ∅).1
  display := style.render (v.snapshot.evaluate formula (v.position a) ∅).1

end View

/-- What a report has to say about a table. -/
structure Report.Describes (r : Report) (v : View) (style : DisplayStyle) : Prop where
  /-- The results are those of the cells with a formula that starts with the equals sign. -/
  listed : ∀ a formula, (∃ c ∈ r.cells, c.address = a ∧ c.formula = formula) ↔
    v.formula? a.col a.row = some formula
  /-- They come row by row and from left to right. -/
  ordered : r.cells.Pairwise fun c c' => c.address.Before c'.address
  /-- No cell has two of them. -/
  distinct : (r.cells.map CellResult.address).Nodup
  /-- Each says what kind of row its cell stands in. -/
  marked : ∀ c ∈ r.cells, c.isTotal = v.isTotalAt c.address.row
  /-- Data rows are numbered by the data rows above them, and total rows go on behind. -/
  placed : ∀ c ∈ r.cells, (v.position c.address).col = c.address.col ∧
    (v.position c.address).row =
      if c.isTotal then v.dataRows.length + v.totalsAbove c.address.row
      else v.dataAbove c.address.row
  /-- Each formula has the value it has alone. -/
  evaluated : ∀ c ∈ r.cells, c.outcome = (v.snapshot.evaluate c.formula (v.position c.address) ∅).1
  /-- This value is shown. -/
  displayed : ∀ c ∈ r.cells, c.display = style.render c.outcome
  /-- No two formulas are evaluated in one cell. -/
  apart : (r.cells.map fun c => v.position c.address).Nodup
  /-- Formulas of data rows are evaluated in the cells that hold them. -/
  held : ∀ c ∈ r.cells, c.isTotal = false → v.snapshot.Computes (v.position c.address) c.formula
  /-- Formulas of total rows are evaluated outside the snapshot. -/
  outside : ∀ c ∈ r.cells, c.isTotal = true → v.snapshot.contains (v.position c.address) = false
  /-- The statistics count the results. -/
  counted : r.statistics.formulas = r.cells.length ∧
    r.statistics.calculated = r.cells.countP (!·.isError) ∧
    r.statistics.errors = r.cells.countP CellResult.isError ∧
    r.statistics.circular = r.cells.countP CellResult.isCircular ∧
    r.statistics.formulas = r.statistics.calculated + r.statistics.errors

namespace View

variable {v : View} {options : RecalculationOptions} {c : CellResult} {a : Address}
  {col row : Nat} {formula : String}

theorem InGrid.fits (h : v.InGrid) : v.Fits where
  rows := Nat.le_trans (List.length_filter_le _ _) (Nat.le_of_lt h.rows)
  cols r hr := Nat.le_of_lt (h.cols r (List.mem_filter.1 hr).1)

/-- In the grid, different places have different addresses. -/
theorem InGrid.addressed (h : v.InGrid) : v.Addressed := by
  intro col row formula hformula
  rcases Option.bind_eq_some_iff.1 hformula with ⟨c, hcell, _⟩
  rcases Option.bind_eq_some_iff.1 hcell with ⟨r, hr, hc⟩
  rcases List.getElem?_eq_some_iff.1 hr with ⟨hrow, _⟩
  rcases List.getElem?_eq_some_iff.1 hc with ⟨hcol, _⟩
  exact ⟨Nat.lt_trans hcol (h.cols r (List.mem_of_getElem? hr)), Nat.lt_trans hrow h.rows⟩

theorem exists_row_of_formula? (hformula : v.formula? col row = some formula) :
    ∃ r, v.rows[row]? = some r := by
  rcases Option.bind_eq_some_iff.1 hformula with ⟨c, hcell, _⟩
  rcases Option.bind_eq_some_iff.1 hcell with ⟨r, hr, _⟩
  exact ⟨r, hr⟩

/-- Nothing is reduced on the way to the place of evaluation. -/
theorem InGrid.position_row (h : v.InGrid) (hformula : v.formula? a.col a.row = some formula) :
    (v.position a).row = v.evaluationRow a.row := by
  rcases exists_row_of_formula? hformula with ⟨r, hr⟩
  exact Nat.mod_eq_of_lt (Nat.lt_trans (evaluationRow_lt hr) h.rows)

theorem position_col (v : View) (a : Address) : (v.position a).col = a.col :=
  Nat.mod_eq_of_lt a.col_lt

/-- The result of a formula cell is what the pass computes for its text at its position. -/
theorem result_formulaCell? (v : View) (options : RecalculationOptions) (a : Address) :
    (v.formulaCell? (a.col, a.row)).map (FormulaCell.result v.snapshot options) =
      (v.formula? a.col a.row).map (v.resultAt options.style a) := by
  rw [formulaCell?, Option.map_map, Address.ofIndices_self]
  rfl

-- Indices in the grid are those of an address, so what stands there has an address.
theorem Addressed.result_eq_some_iff (h : v.Addressed) {place : Nat × Nat} :
    (v.formulaCell? place).map (FormulaCell.result v.snapshot options) = some c ↔
      place = (c.address.col, c.address.row) ∧
        ∃ formula, v.formula? c.address.col c.address.row = some formula ∧
          c = v.resultAt options.style c.address formula := by
  constructor
  · intro hc
    rcases Option.map_eq_some_iff.1 hc with ⟨cell, hcell, _⟩
    rcases Option.map_eq_some_iff.1 hcell with ⟨formula, hformula, _⟩
    -- The place has an address, so it is the place of one.
    rcases h _ _ _ hformula with ⟨hcol, hrow⟩
    have ha : place = ((Address.mk place.1 place.2 hcol hrow).col,
        (Address.mk place.1 place.2 hcol hrow).row) := rfl
    rw [ha, result_formulaCell?, Option.map_eq_some_iff] at hc
    rcases hc with ⟨formula, hformula, rfl⟩
    exact ⟨rfl, formula, hformula, rfl⟩
  · rintro ⟨rfl, formula, hformula, hc⟩
    rw [result_formulaCell?, hformula, Option.map_some, ← hc]

/-- A report has the result of every formula of the document, and nothing else. -/
theorem mem_recalculate_iff (h : v.Addressed) : c ∈ (v.recalculate options).cells ↔
    ∃ formula, v.formula? c.address.col c.address.row = some formula ∧
      c = v.resultAt options.style c.address formula := by
  rw [recalculate_eq, List.mem_filterMap]
  constructor
  · rintro ⟨place, _, hresult⟩
    exact (h.result_eq_some_iff.1 hresult).2
  · rintro ⟨formula, hformula, hc⟩
    exact ⟨_, mem_places_of_formula? hformula,
      h.result_eq_some_iff.2 ⟨rfl, formula, hformula, hc⟩⟩

/-- Every reported cell is a formula cell of the view, with the result computed for it. -/
theorem eq_resultAt (h : v.Addressed) (hc : c ∈ (v.recalculate options).cells) :
    v.formula? c.address.col c.address.row = some c.formula ∧
      c = v.resultAt options.style c.address c.formula := by
  rcases (mem_recalculate_iff h).1 hc with ⟨formula, hformula, hresult⟩
  have hsame : c.formula = formula := congrArg CellResult.formula hresult
  rw [hsame]
  exact ⟨hformula, hresult⟩

/-- Results are in the order of the places of the document. -/
theorem pairwise_recalculate (h : v.Addressed) :
    (v.recalculate options).cells.Pairwise fun c c' => c.address.Before c'.address := by
  rw [recalculate_eq, List.pairwise_filterMap]
  refine (pairwise_places v).imp fun hbefore c hc c' hc' => ?_
  rcases h.result_eq_some_iff.1 hc with ⟨rfl, _⟩
  rcases h.result_eq_some_iff.1 hc' with ⟨rfl, _⟩
  exact hbefore

/-- Formulas at different places are evaluated in different cells. -/
theorem position_injective (h : v.InGrid) {a a' : Address} {formula' : String}
    (hformula : v.formula? a.col a.row = some formula)
    (hformula' : v.formula? a'.col a'.row = some formula')
    (hposition : v.position a = v.position a') : a = a' := by
  rcases exists_row_of_formula? hformula with ⟨r, hr⟩
  rcases exists_row_of_formula? hformula' with ⟨r', hr'⟩
  have hcol : a.col = a'.col := by
    rw [← position_col v a, hposition, position_col]
  -- The position keeps the column, and no two rows are evaluated under one number.
  have hrow : v.evaluationRow a.row = v.evaluationRow a'.row := by
    rw [← h.position_row hformula, hposition, h.position_row hformula']
  exact Address.ext hcol (evaluationRow_injective hr hr' hrow)

/-- A formula in a data row is a formula of the snapshot, at the position where it is evaluated. -/
theorem computes_position (h : v.InGrid) (hformula : v.formula? a.col a.row = some formula)
    (hdata : v.isTotalAt a.row = false) : v.snapshot.Computes (v.position a) formula := by
  have hcell : v.formulaCell? (a.col, a.row) = some
      { address := Address.ofIndices a.col a.row
        position := v.position a
        isTotal := v.isTotalAt a.row
        formula := formula } := by
    rw [formulaCell?, hformula]
    rfl
  have hmem := List.mem_filterMap.2 ⟨_, mem_places_of_formula? hformula, hcell⟩
  rw [← formulaCells_eq] at hmem
  exact computes_of_mem_formulaCells h.fits hmem hdata

/-- A formula in a total row is evaluated at a position outside the snapshot. -/
theorem not_contains_position (h : v.InGrid) (hformula : v.formula? a.col a.row = some formula)
    (htotal : v.isTotalAt a.row = true) : v.snapshot.contains (v.position a) = false := by
  rw [Bool.eq_false_iff]
  intro hcontains
  have hrow := ((Snapshot.contains_iff _ _).1 hcontains).1
  rw [h.position_row hformula, evaluationRow_of_total htotal, Snapshot.height_snapshot] at hrow
  omega

/-- In a table with fewer rows and columns than the grid, the report of a pass has one result for
    each formula of the document, in document order, with the value that the formula has alone at
    its place, and statistics that count these results. Formulas of data rows are evaluated in the
    cells that hold them, those of total rows outside the snapshot, and no two in one cell. The
    report is the same whether or not the formulas share a cache. -/
theorem recalculate_describes (v : View) (h : v.InGrid) (options : RecalculationOptions) :
    (v.recalculate options).Describes v options.style ∧
      v.recalculate { options with shareCache := true } =
        v.recalculate { options with shareCache := false } := by
  -- Both facts are about all reported cells; the fields below are read off them.
  have hordered : (v.recalculate options).cells.Pairwise fun c c' => c.address.Before c'.address :=
    pairwise_recalculate h.addressed
  have hresult : ∀ c ∈ (v.recalculate options).cells,
      v.formula? c.address.col c.address.row = some c.formula ∧
        c = v.resultAt options.style c.address c.formula := fun c => eq_resultAt h.addressed
  constructor
  · constructor
    case ordered => exact hordered
    case listed =>
      intro a formula
      constructor
      · rintro ⟨c, hc, rfl, rfl⟩
        exact (hresult c hc).1
      · intro hformula
        exact ⟨v.resultAt options.style a formula,
          (mem_recalculate_iff h.addressed).2 ⟨formula, hformula, rfl⟩, rfl, rfl⟩
    -- In a strict order no address comes twice.
    case distinct =>
      rw [List.Nodup, List.pairwise_map]
      refine hordered.imp fun hbefore heq => ?_
      rw [heq] at hbefore
      exact Std.Irrefl.irrefl _ hbefore
    case marked => exact fun c hc => congrArg CellResult.isTotal (hresult c hc).2
    case placed =>
      intro c hc
      have htotal : c.isTotal = v.isTotalAt c.address.row :=
        congrArg CellResult.isTotal (hresult c hc).2
      rw [position_col, h.position_row (hresult c hc).1, htotal]
      exact ⟨rfl, rfl⟩
    case evaluated => exact fun c hc => congrArg CellResult.outcome (hresult c hc).2
    case displayed =>
      intro c hc
      rw [(hresult c hc).2]
      rfl
    -- Two cells at one position would have one address, and the order is strict.
    case apart =>
      rw [List.Nodup, List.pairwise_map]
      refine hordered.imp_of_mem fun hc hc' hbefore heq => ?_
      rw [position_injective h (hresult _ hc).1 (hresult _ hc').1 heq] at hbefore
      exact Std.Irrefl.irrefl _ hbefore
    case held =>
      intro c hc hdata
      rw [(hresult c hc).2] at hdata
      exact computes_position h (hresult c hc).1 hdata
    case outside =>
      intro c hc htotal
      rw [(hresult c hc).2] at htotal
      exact not_contains_position h (hresult c hc).1 htotal
    case counted =>
      have hcount := List.length_eq_countP_add_countP CellResult.isError
        (l := (v.recalculate options).cells)
      simp only [Bool.not_eq_true, Bool.decide_eq_false] at hcount
      rw [Report.statistics_eq]
      exact ⟨rfl, rfl, rfl, rfl, hcount.trans (Nat.add_comm _ _)⟩
  · -- Whether the cache is kept between the cells or not, each is evaluated as if alone.
    rw [recalculate, recalculate, Report.mk.injEq, evaluateAll_eq_map Snapshot.sound_empty,
      evaluateAll_eq_map Snapshot.sound_empty]
    rfl

-- A total row between two data rows is evaluated behind both, and the second of them in row 2.
theorem recalculate_describes_total_between :
    let v : View := ⟨[⟨false, [⟨none, "5"⟩]⟩, ⟨true, [⟨some "=A2+1", ""⟩]⟩,
      ⟨false, [⟨some "=A1*2", ""⟩]⟩]⟩
    v.InGrid ∧
      (∃ c ∈ (v.recalculate {}).cells, c.address = Address.ofIndices 0 1 ∧ c.formula = "=A2+1" ∧
        (v.position c.address).row = 2 ∧ v.snapshot.contains (v.position c.address) = false) ∧
      ∃ c ∈ (v.recalculate {}).cells, c.address = Address.ofIndices 0 2 ∧ c.formula = "=A1*2" ∧
        (v.position c.address).row = 1 ∧ v.snapshot.Computes (v.position c.address) "=A1*2" := by
  intro v
  have hgrid : v.InGrid := ⟨by decide, by decide⟩
  -- Both parts are read off the report: the total row comes after all data rows, the data row moves
  -- up.
  have hreport := (recalculate_describes v hgrid {}).1
  refine ⟨hgrid, ?_, ?_⟩
  · rcases (hreport.listed (Address.ofIndices 0 1) "=A2+1").2 rfl with ⟨c, hc, haddress, hformula⟩
    have htotal : c.isTotal = true := by
      rw [hreport.marked c hc, haddress]
      rfl
    refine ⟨c, hc, haddress, hformula, ?_, hreport.outside c hc htotal⟩
    rw [(hreport.placed c hc).2, htotal, haddress]
    rfl
  · rcases (hreport.listed (Address.ofIndices 0 2) "=A1*2").2 rfl with ⟨c, hc, haddress, hformula⟩
    have hdata : c.isTotal = false := by
      rw [hreport.marked c hc, haddress]
      rfl
    have hheld := hreport.held c hc hdata
    rw [hformula] at hheld
    refine ⟨c, hc, haddress, hformula, ?_, hheld⟩
    rw [(hreport.placed c hc).2, hdata, haddress]
    rfl

end View

end Worksheet
