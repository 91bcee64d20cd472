import Worksheet.Proofs.Recalculation.Completeness

/-!
# Recalculation is repeatable

A pass writes its results into the cells that the next pass reads. It may be repeated all the same:
a cell whose formula counts is never read as data, so what was written into it makes no difference,
and the next pass finds the results of the first one in exactly the cells it writes itself.

What a pass reads is therefore a table in which every such cell is still empty. Writing results
into a table changes nothing about this table, and the displayed results are determined by it.

Results are written to the address of their formula. In documents larger than the grid an index
may be reduced on the way and a result end up in another cell, even in one that is data, so the
formulas are required to stand within the grid. The form of a table is kept in any case.

## Main definitions

* `Cell.cleared`: A cell as it was before its formula was computed.
* `Table.form`: The rows of a table, their kinds and widths, and the stored formulas.
* `Table.withoutResults`: A table with no result shown in it.
* `Report.shown?`: The text that a report leaves at a place.
* `Report.Covers`: A report that shows a result exactly in the cells with a formula.

## Theorems

* `Table.recalculate_withoutResults`: A pass does not read what is shown for a formula.
* `Report.cell?_apply`: What a report makes of a cell.
* `View.shown?_recalculate`: The report of a pass shows each formula's value in its cell.
* `Table.recalculated_repeatable`: A pass leaves the data alone, and the next one starts afresh.
* `Table.recalculated_overwrites_data`: In a row that is longer than the grid it does not.
-/

namespace Worksheet

/-- A cell as it was before its formula was computed. A cell without a formula that counts is data
    and stays. -/
def Cell.cleared (c : Cell) : Cell :=
  if c.source?.isSome then { c with content := .empty } else c

/-- A cell as a calculation sees it before its formula was computed. -/
def View.Cell.cleared (c : View.Cell) : View.Cell :=
  if c.computed?.isSome then { c with text := "" } else c

/-- A view with a function applied to every cell. -/
def View.mapCells (f : View.Cell → View.Cell) (v : View) : View where
  rows := v.rows.map fun r => ⟨r.isTotal, r.cells.map f⟩

namespace Table

/-- Everything about a table but the contents of its cells: for each row whether it is a total row,
    and the stored formulas of its cells. -/
def form (t : Table) : List (Bool × List (Option String)) :=
  t.rows.map fun r => (r.isTotal, r.cells.map Cell.formula)

/-- The table with the contents of all cells erased that have a formula which counts. The rows, the
    formulas and all other cells stay. -/
def withoutResults (t : Table) : Table := t.mapCells Cell.cleared

end Table

namespace Report

/-- The text that a report leaves at a place of the document: the last one written there. -/
def shown? (r : Report) (col row : Nat) : Option String :=
  (r.cells.reverse.find? fun c => c.address.col == col && c.address.row == row).map
    CellResult.display

/-- A report that shows a text in the cells with a formula that counts, and in no other cell. -/
def Covers (r : Report) (t : Table) : Prop :=
  ∀ col row c, t.cell? col row = some c → (r.shown? col row).isSome = c.source?.isSome

end Report

/-! ## Cells -/

namespace Cell

variable {c c' : Cell}

/-- Clearing a cell forgets its result, never its formula. -/
theorem formula_cleared (c : Cell) : c.cleared.formula = c.formula := by
  unfold cleared
  split <;> rfl

/-- What a pass computes for a cell is read off its formula alone. -/
theorem source?_congr (h : c.formula = c'.formula) : c.source? = c'.source? := by
  rw [source?, source?, h]

theorem cleared_of_source? (h : c.source?.isSome = true) :
    c.cleared = { c with content := .empty } := if_pos h

theorem cleared_of_not_source? (h : c.source?.isSome = false) : c.cleared = c :=
  if_neg (Bool.eq_false_iff.1 h)

/-- Two cells that agree up to their results have the same formula. -/
theorem formula_eq_of_cleared (h : c.cleared = c'.cleared) : c.formula = c'.formula := by
  rw [← formula_cleared, h, formula_cleared]

-- Data is not erased, so it can be told from what is left.
theorem eq_of_cleared (h : c.cleared = c'.cleared) (hdata : c.source?.isSome = false) :
    c = c' := by
  have hdata' : c'.source?.isSome = false := by
    rw [← source?_congr (formula_eq_of_cleared h)]
    exact hdata
  rw [← cleared_of_not_source? hdata, h, cleared_of_not_source? hdata']

-- What is shown for a formula is erased again.
theorem cleared_withDisplayText (h : c.source?.isSome = true) (text : String) :
    (c.withDisplayText text).cleared = c.cleared := by
  have hshown : (c.withDisplayText text).source?.isSome = true := h
  rw [cleared_of_source? h, cleared_of_source? hshown, withDisplayText]

end Cell

/-! ## What a pass reads -/

namespace View

variable {f : Cell → Cell} {v : View} {options : RecalculationOptions}

theorem dataRows_mapCells (f : Cell → Cell) (v : View) :
    (v.mapCells f).dataRows = v.dataRows.map fun r => ⟨r.isTotal, r.cells.map f⟩ := by
  rw [dataRows, mapCells, List.filter_map]
  rfl

/-- A change of cells that keeps what they compute keeps the formulas of a row, and their places. -/
theorem Row.formulas_map (hcomputed : ∀ c, (f c).computed? = c.computed?) (r : Row) (i : Nat) :
    (Row.mk r.isTotal (r.cells.map f)).formulas i = r.formulas i := by
  rw [formulas, formulas, List.zipIdx_map, List.filterMap_map]
  refine List.filterMap_congr fun p _ => ?_
  simp only [Function.comp_apply, Prod.map, id_eq, hcomputed]

/-- The snapshot of a view does not see a change of cells that keeps the formulas and the plain
    numbers. -/
theorem snapshot_mapCells (hcomputed : ∀ c, (f c).computed? = c.computed?)
    (hnumber : ∀ c, (f c).number? = c.number?) : (v.mapCells f).snapshot = v.snapshot := by
  have hrows : ((v.mapCells f).dataRows.map fun r => r.cells.map Cell.number?) =
      v.dataRows.map fun r => r.cells.map Cell.number? := by
    rw [dataRows_mapCells, List.map_map]
    refine List.map_congr_left fun r _ => ?_
    rw [Function.comp_apply, List.map_map]
    exact List.map_congr_left fun c _ => hnumber c
  have hformulas : (v.mapCells f).formulas = v.formulas := by
    rw [formulas, formulas, dataRows_mapCells, List.zipIdx_map, List.flatMap_map]
    exact List.flatMap_congr fun p _ => Row.formulas_map hcomputed p.1 p.2
  rw [snapshot, snapshot, hrows, hformulas]

/-- A change of cells moves no row: the placements carry the changed cells and the same numbers. -/
theorem placementsFrom_map (f : Cell → Cell) (documentRow dataRow totalRow : Nat)
    (rows : List Row) :
    placementsFrom documentRow dataRow totalRow (rows.map fun r => ⟨r.isTotal, r.cells.map f⟩) =
      (placementsFrom documentRow dataRow totalRow rows).map fun p =>
        { p with row := ⟨p.row.isTotal, p.row.cells.map f⟩ } := by
  induction rows generalizing documentRow dataRow totalRow with
  | nil => rfl
  | cons r rest ih =>
      rw [List.map_cons, placementsFrom, placementsFrom]
      dsimp only
      by_cases htotal : r.isTotal = true
      · rw [if_pos htotal, if_pos htotal, ih, List.map_cons]
      · rw [if_neg htotal, if_neg htotal, ih, List.map_cons]

/-- The formula cells of a view, with their addresses, survive a change of cells that keeps what is
    computed. -/
theorem formulaCells_mapCells (hcomputed : ∀ c, (f c).computed? = c.computed?) :
    (v.mapCells f).formulaCells = v.formulaCells := by
  rw [formulaCells, formulaCells, placements, placements, dataRows_mapCells, List.length_map,
    mapCells, placementsFrom_map, List.flatMap_map]
  refine List.flatMap_congr fun p _ => ?_
  rw [Placement.formulaCells, Placement.formulaCells, List.zipIdx_map, List.filterMap_map]
  refine List.filterMap_congr fun q _ => ?_
  simp only [Function.comp_apply, Prod.map, id_eq, hcomputed]

/-- A pass makes no difference between cells that are computed by one formula or have one number. -/
theorem recalculate_mapCells (hcomputed : ∀ c, (f c).computed? = c.computed?)
    (hnumber : ∀ c, (f c).number? = c.number?) :
    (v.mapCells f).recalculate options = v.recalculate options := by
  rw [recalculate, recalculate, snapshot_mapCells hcomputed hnumber,
    formulaCells_mapCells hcomputed]

theorem Cell.computed?_cleared (c : Cell) : c.cleared.computed? = c.computed? := by
  unfold cleared
  split <;> rfl

theorem Cell.number?_cleared (c : Cell) : c.cleared.number? = c.number? := by
  rw [number?, number?, computed?_cleared]
  by_cases h : c.computed?.isSome = true
  · rw [if_pos h, if_pos h]
  · rw [if_neg h, if_neg h, cleared, if_neg h]

end View

namespace Table

variable {t t' : Table} {col row : Nat}

-- A formula that starts with the equals sign is reported as it is.
theorem computed?_view (c : Cell) (text : String) :
    (View.Cell.mk c.source? text).computed? = c.source? := by
  rw [View.Cell.computed?, Cell.source?, Option.filter_filter]
  simp only [Bool.and_self]

/-- Forgetting the results of a table clears the cells of its view one by one. -/
theorem view_withoutResults (t : Table) :
    t.withoutResults.view = t.view.mapCells View.Cell.cleared := by
  unfold withoutResults view viewWith mapCells View.mapCells
  simp only [List.map_map, View.mk.injEq]
  refine List.map_congr_left fun r _ => ?_
  simp only [Function.comp_apply, List.map_map, View.Row.mk.injEq, true_and]
  refine List.map_congr_left fun c _ => ?_
  rw [Function.comp_apply, Function.comp_apply, View.Cell.cleared, computed?_view,
    Cell.source?_congr c.formula_cleared]
  by_cases h : c.source?.isSome = true
  · rw [if_pos h, Cell.cleared_of_source? h]
    simp only [Cell.displayText, Content.plainText_empty]
  · rw [if_neg h, Cell.cleared_of_not_source? (Bool.eq_false_iff.2 h)]

/-- A pass does not read what is shown for a formula. -/
theorem recalculate_withoutResults (t : Table) (options : RecalculationOptions) :
    t.withoutResults.view.recalculate options = t.view.recalculate options := by
  rw [view_withoutResults]
  exact View.recalculate_mapCells View.Cell.computed?_cleared View.Cell.number?_cleared

/-- The formula a view shows at a place is what the table computes there. -/
theorem formula?_view (t : Table) (col row : Nat) :
    t.view.formula? col row = (t.cell? col row).bind Cell.source? := by
  unfold View.formula? View.cell? view viewWith cell?
  simp only [List.getElem?_map, Option.bind_eq_bind]
  cases t.rows[row]? with
  | none => rfl
  | some r =>
      simp only [Option.map_some, Option.bind_some, List.getElem?_map]
      cases r.cells[col]? with
      | none => rfl
      | some c => exact computed?_view c c.displayText

/-! ## What is written -/

theorem cell?_mapCells (t : Table) (f : Cell → Cell) (col row : Nat) :
    (t.mapCells f).cell? col row = (t.cell? col row).map f := by
  unfold cell? mapCells
  simp only [List.getElem?_map, Option.bind_eq_bind]
  cases t.rows[row]? with
  | none => rfl
  | some r => simp only [Option.map_some, Option.bind_some, List.getElem?_map]

/-- An update reaches the cell at its own place and no other. -/
theorem cell?_updateCell (t : Table) (col row : Nat) (f : Cell → Cell) (col' row' : Nat) :
    (t.updateCell col row f).cell? col' row' =
      (t.cell? col' row').map fun c => if col = col' ∧ row = row' then f c else c := by
  unfold cell? updateCell
  simp only [List.getElem?_modify, Option.bind_eq_bind]
  cases t.rows[row']? with
  | none => rfl
  | some r =>
      by_cases hrow : row = row'
      · simp only [hrow, if_true, and_true, Option.map_eq_map, Option.map_some, Option.bind_some,
          List.getElem?_modify]
      · simp only [hrow, if_false, and_false, Option.map_eq_map, Option.map_some,
          Option.bind_some, Option.map_id']

/-- Tables are equal if their rows are of the same kinds and have the same cells. -/
theorem ext_of_cell? (hrows : t.rows.map Row.isTotal = t'.rows.map Row.isTotal)
    (hcell : ∀ col row, t.cell? col row = t'.cell? col row) : t = t' := by
  suffices hall : t.rows = t'.rows by
    cases t
    cases t'
    exact congrArg Table.mk hall
  -- The cells alone do not tell how many rows there are, the kinds of the rows do.
  refine List.ext_getElem? fun row => ?_
  have hkind : t.rows[row]?.map Row.isTotal = t'.rows[row]?.map Row.isTotal := by
    rw [← List.getElem?_map, ← List.getElem?_map, hrows]
  cases hr : t.rows[row]? with
  | none =>
      rw [hr, Option.map_none, eq_comm, Option.map_eq_none_iff] at hkind
      exact hkind.symm
  | some r =>
      rw [hr, Option.map_some, eq_comm, Option.map_eq_some_iff] at hkind
      rcases hkind with ⟨r', hr', htotal⟩
      have hcells : r.cells = r'.cells := by
        refine List.ext_getElem? fun col => ?_
        have hat := hcell col row
        unfold cell? at hat
        simpa only [hr, hr', Option.bind_eq_bind, Option.bind_some] using hat
      cases r
      cases r'
      rw [hr', Option.some.injEq, Row.mk.injEq]
      exact ⟨hcells, htotal.symm⟩

theorem form_withoutResults (t : Table) : t.withoutResults.form = t.form := by
  unfold form withoutResults mapCells
  rw [List.map_map]
  refine List.map_congr_left fun r _ => ?_
  simp only [Function.comp_apply, List.map_map, Prod.mk.injEq, true_and]
  exact List.map_congr_left fun c _ => c.formula_cleared

/-- The form of a table says which of its rows are total rows. -/
theorem kinds_of_form (h : t.form = t'.form) :
    t.rows.map Row.isTotal = t'.rows.map Row.isTotal := by
  have hkinds := congrArg (List.map Prod.fst) h
  unfold form at hkinds
  rw [List.map_map, List.map_map] at hkinds
  exact hkinds

/-- Writing a result somewhere leaves the form of the table as it was. -/
theorem form_updateCell (t : Table) (col row : Nat) (f : Cell → Cell)
    (hf : ∀ c, (f c).formula = c.formula) : (t.updateCell col row f).form = t.form := by
  unfold form updateCell
  refine List.ext_getElem? fun row' => ?_
  rw [List.getElem?_map, List.getElem?_map, List.getElem?_modify]
  cases t.rows[row']? with
  | none => rfl
  | some r =>
      by_cases hrow : row = row'
      · -- Only this row is changed, and in it only one cell, which keeps its formula.
        simp only [hrow, if_true, Option.map_eq_map, Option.map_some, Option.some.injEq,
          Prod.mk.injEq, true_and]
        refine List.ext_getElem? fun col' => ?_
        rw [List.getElem?_map, List.getElem?_map, List.getElem?_modify]
        cases r.cells[col']? with
        | none => rfl
        | some c =>
            simp only [Option.map_eq_map, Option.map_some, Option.some.injEq]
            split
            · exact hf c
            · rfl
      · simp only [hrow, if_false, Option.map_eq_map, Option.map_some]

end Table

namespace Report

variable {r : Report} {t t' : Table} {col row : Nat}

-- By induction on the last result written, which is the one that stays.
theorem cell?_apply (r : Report) (t : Table) (col row : Nat) :
    (r.apply t).cell? col row =
      (t.cell? col row).map fun c => (r.shown? col row).elim c c.withDisplayText := by
  rcases r with ⟨cells⟩
  unfold apply shown?
  dsimp only
  induction cells using List.reverseRecOn with
  | nil =>
      simp only [List.foldl_nil, List.reverse_nil, List.find?_nil, Option.map_none,
        Option.elim_none, Option.map_id']
  | append_singleton cells last ih =>
      rw [List.foldl_append, List.foldl_cons, List.foldl_nil, Table.cell?_updateCell, ih,
        Option.map_map, List.reverse_append, List.reverse_singleton, List.singleton_append,
        List.find?_cons]
      refine congrArg (fun f => (t.cell? col row).map f) (funext fun c => ?_)
      rw [Function.comp_apply]
      by_cases hhere : last.address.col = col ∧ last.address.row = row
      · have hfound : (last.address.col == col && last.address.row == row) = true := by
          simp only [hhere, BEq.rfl, Bool.and_self]
        rw [if_pos hhere, hfound]
        -- The text written last replaces whatever was there.
        simp only [Option.map_some, Option.elim_some]
        cases (cells.reverse.find? fun c => c.address.col == col && c.address.row == row).map
            CellResult.display with
        | none => rfl
        | some text => rfl
      · have hother : (last.address.col == col && last.address.row == row) = false := by
          rw [Bool.eq_false_iff]
          intro h
          simp only [Bool.and_eq_true, beq_iff_eq] at h
          exact hhere h
        rw [if_neg hhere, hother]

/-- Writing results keeps the rows, their kinds and widths, and all stored formulas. -/
theorem form_apply (r : Report) (t : Table) : (r.apply t).form = t.form := by
  unfold apply
  induction r.cells generalizing t with
  | nil => rfl
  | cons c rest ih =>
      rw [List.foldl_cons, ih]
      exact t.form_updateCell _ _ _ fun _ => rfl

/-- Results are written only where they are erased again. -/
theorem Covers.withoutResults_apply (h : r.Covers t) :
    (r.apply t).withoutResults = t.withoutResults := by
  refine Table.ext_of_cell? (Table.kinds_of_form ?_) fun col row => ?_
  · rw [Table.form_withoutResults, Table.form_withoutResults, form_apply]
  · unfold Table.withoutResults
    rw [Table.cell?_mapCells, Table.cell?_mapCells, cell?_apply, Option.map_map]
    refine Option.map_congr fun c hc => ?_
    -- Results are written where there is a formula, and those cells are cleared anyway.
    have hcovered := h col row c hc
    rw [Function.comp_apply]
    cases hshown : r.shown? col row with
    | none => rfl
    | some text =>
        rw [hshown, Option.isSome_some] at hcovered
        exact Cell.cleared_withDisplayText hcovered.symm text

/-- Results are written wherever one might have been before. -/
theorem Covers.apply_congr (h : r.Covers t) (hsame : t.withoutResults = t'.withoutResults) :
    r.apply t = r.apply t' := by
  refine Table.ext_of_cell? (Table.kinds_of_form ?_) fun col row => ?_
  · rw [form_apply, form_apply, ← Table.form_withoutResults t, hsame, Table.form_withoutResults]
  · have hcleared : (t.cell? col row).map Cell.cleared = (t'.cell? col row).map Cell.cleared := by
      rw [← Table.cell?_mapCells, ← Table.cell?_mapCells]
      exact congrArg (fun t => t.cell? col row) hsame
    rw [cell?_apply, cell?_apply]
    cases hc : t.cell? col row with
    | none =>
        rw [hc, Option.map_none, eq_comm, Option.map_eq_none_iff] at hcleared
        rw [hcleared]
    | some c =>
        rw [hc, Option.map_some, eq_comm, Option.map_eq_some_iff] at hcleared
        rcases hcleared with ⟨c', hc', heq⟩
        have hcovered := h col row c hc
        rw [hc', Option.map_some, Option.map_some, Option.some.injEq]
        cases hshown : r.shown? col row with
        | none =>
            -- Nothing is written here, so the cell is data and the same in both tables.
            rw [hshown, Option.isSome_none] at hcovered
            exact Cell.eq_of_cleared heq.symm hcovered.symm
        | some text =>
            simp only [Option.elim_some, Cell.withDisplayText, Cell.formula_eq_of_cleared heq]

end Report

namespace View

variable {v : View} {options : RecalculationOptions} {col row : Nat}

/-- The report of a pass shows the value of each formula in its cell, and nothing elsewhere. -/
theorem shown?_recalculate (h : v.Addressed) :
    (v.recalculate options).shown? col row = (v.formula? col row).map fun formula =>
      options.style.render
        (v.snapshot.evaluate formula (Address.ofIndices col (v.evaluationRow row)) ∅).1 := by
  rw [Report.shown?]
  cases hfound : (v.recalculate options).cells.reverse.find? fun c =>
      c.address.col == col && c.address.row == row with
  | some c =>
      have hplace := List.find?_some hfound
      simp only [Bool.and_eq_true, beq_iff_eq] at hplace
      rcases eq_resultAt h (List.mem_reverse.1 (List.mem_of_find?_eq_some hfound)) with
        ⟨hformula, hc⟩
      rcases hplace with ⟨rfl, rfl⟩
      rw [hformula, Option.map_some, Option.map_some, hc]
      rfl
  | none =>
      cases hformula : v.formula? col row with
      | none => rfl
      | some formula =>
          -- A formula within the grid has a result at its address.
          rcases h col row formula hformula with ⟨hcol, hrow⟩
          let a : Address := ⟨col, row, hcol, hrow⟩
          have hmem : v.resultAt options.style a formula ∈ (v.recalculate options).cells :=
            (mem_recalculate_iff h).2 ⟨formula, hformula, rfl⟩
          have hnone := List.find?_eq_none.1 hfound _ (List.mem_reverse.2 hmem)
          simp only [resultAt, a, BEq.rfl, Bool.and_self, not_true_eq_false] at hnone

/-- Of a single row that ends in a formula, behind data, only this formula is computed. -/
theorem formulaCells_last (n : Nat) {c d : Cell} {formula : String}
    (hc : c.computed? = none) (hd : d.computed? = some formula) :
    (mk [⟨false, List.replicate n c ++ [d]⟩]).formulaCells =
      [⟨Address.ofIndices n 0, Address.ofIndices n 0, false, formula⟩] := by
  have hdata : ∀ p ∈ (List.replicate n c).zipIdx, p.1.computed? = none := by
    intro p hp
    rw [List.eq_of_mem_replicate (List.fst_mem_of_mem_zipIdx hp), hc]
  change (Placement.mk ⟨false, List.replicate n c ++ [d]⟩ 0 0).formulaCells ++ [] = _
  rw [List.append_nil, Placement.formulaCells, List.zipIdx_append, List.filterMap_append,
    List.length_replicate, Nat.zero_add, List.zipIdx_singleton]
  simp only [List.filterMap_cons, hd, Option.map_some, List.filterMap_nil]
  -- The cells in front compute nothing, so only the last is left.
  refine (congrArg (· ++ _) (List.filterMap_eq_nil_iff.2 fun p hp => ?_)).trans
    (List.nil_append _)
  exact Option.map_eq_none_iff.2 (hdata p hp)

end View

namespace Table

variable {t : Table}

/-- A pass over an addressed view finds every formula cell of the table. -/
theorem covers_recalculate (h : t.view.Addressed) (options : RecalculationOptions) :
    (t.view.recalculate options).Covers t := by
  intro col row c hc
  rw [View.shown?_recalculate h, formula?_view, hc, Option.bind_some, Option.isSome_map]

/-- Recalculating keeps the form of a table. If its formulas stand within the grid, nothing changes
    but the contents of the cells with a formula that counts, and these show the results. A later
    pass, with any options, has the results it would have had without the first one, and leaves
    the table that it would have left. -/
theorem recalculated_repeatable (t : Table) (o₁ o₂ : RecalculationOptions) :
    (t.recalculated o₁).1.form = t.form ∧
      (t.view.Addressed →
        (t.recalculated o₁).1.withoutResults = t.withoutResults ∧
        (∀ c ∈ (t.view.recalculate o₁).cells,
          ((t.recalculated o₁).1.cell? c.address.col c.address.row).map Cell.displayText =
            some c.display) ∧
        (t.recalculated o₁).1.view.recalculate o₂ = t.view.recalculate o₂ ∧
        (t.recalculated o₁).1.recalculated o₂ = t.recalculated o₂) := by
  refine ⟨Report.form_apply _ t, fun h => ?_⟩
  have hcleared : (t.recalculated o₁).1.withoutResults = t.withoutResults :=
    (covers_recalculate h o₁).withoutResults_apply
  -- The pass sees the table up to its results, which is all the first pass has changed.
  have hreport : (t.recalculated o₁).1.view.recalculate o₂ = t.view.recalculate o₂ := by
    rw [← recalculate_withoutResults, hcleared, recalculate_withoutResults]
  -- Every result is written over, so it does not matter what was there before.
  have happlied : (t.view.recalculate o₂).apply t =
      (t.view.recalculate o₂).apply (t.recalculated o₁).1 :=
    (covers_recalculate h o₂).apply_congr hcleared.symm
  refine ⟨hcleared, fun c hc => ?_, hreport, ?_⟩
  · rcases View.eq_resultAt h hc with ⟨hformula, hresult⟩
    rcases Option.bind_eq_some_iff.1 ((formula?_view _ _ _).symm.trans hformula) with
      ⟨cell, hcell, _⟩
    rw [recalculated, Report.cell?_apply, hcell, View.shown?_recalculate h, hformula, hresult]
    simp only [Option.map_some, Option.elim_some, Cell.displayText, Cell.withDisplayText,
      Content.plainText_run]
    rfl
  · rw [recalculated, hreport, ← happlied]
    rfl

-- A formula that refers to its own cell, where a number was shown, in a row that is added up.
theorem recalculated_repeatable_over_stale_text :
    let t : Table := ⟨[⟨[.ofText "5", ⟨.run "7", some "=B1"⟩], false⟩,
      ⟨[.ofText "Sum", ⟨.run "12", some "=SUM(A1:B1)"⟩], true⟩]⟩
    let o : RecalculationOptions := { style := { decimals := 0 }, shareCache := false }
    t.view.Addressed ∧
      ((t.recalculated o).1.cell? 1 0).map Cell.displayText = some "Error" ∧
      (t.recalculated o).1.view.recalculate {} = t.view.recalculate {} ∧
      (t.recalculated o).1.recalculated {} = t.recalculated {} := by
  intro t o
  have haddressed : t.view.Addressed := View.InGrid.addressed ⟨by decide, by decide⟩
  have hrepeat := (recalculated_repeatable t o {}).2 haddressed
  refine ⟨haddressed, ?_, hrepeat.2.2⟩
  let b : Address := ⟨1, 0, by decide, by decide⟩
  -- The formula that names itself is among the reported cells, stale text or not.
  have hmem : t.view.resultAt o.style b "=B1" ∈ (t.view.recalculate o).cells :=
    (View.mem_recalculate_iff haddressed).2 ⟨"=B1", rfl, rfl⟩
  have hparse : Formula.parse "=B1" = .ok ⟨[.cell b]⟩ := by cbv
  have houtcome : (t.view.snapshot.evaluate "=B1" b ∅).1 = .error .selfReference := by
    rw [Snapshot.evaluate_eq Snapshot.sound_empty]
    exact Snapshot.outcomeWith_of_names ⟨_, hparse, List.mem_singleton_self _⟩
  have hdisplay : (t.view.resultAt o.style b "=B1").display = "Error" := by
    change o.style.render (t.view.snapshot.evaluate "=B1" b ∅).1 = "Error"
    rw [houtcome, DisplayStyle.render_error]
    rfl
  have hshown := hrepeat.2.1 _ hmem
  rw [hdisplay] at hshown
  exact hshown

-- The last cell of the row stands behind `2 ^ 32` others and has the address of the first of them.
-- Its result is shown there, in a cell that is data.
theorem recalculated_overwrites_data :
    let t : Table := ⟨[⟨List.replicate (2 ^ 32) (.ofText "5") ++ [.ofFormula "=A1"], false⟩]⟩
    ((t.cell? 0 0).map Cell.displayText = some "5" ∧ (t.cell? 0 0).bind Cell.source? = none) ∧
      ((t.recalculated {}).1.cell? 0 0).map Cell.displayText = some "Error" := by
  intro t
  -- The row is too long to be written out, so it is taken apart at its two ends.
  obtain ⟨n, hn⟩ : ∃ n, 2 ^ 32 = n + 1 := ⟨2 ^ 32 - 1, rfl⟩
  have hfirst : t.cell? 0 0 = some (.ofText "5") := by
    simp only [t, hn, cell?, List.replicate_succ]
    rfl
  have hcells : t.view.formulaCells =
      [⟨Address.ofIndices (2 ^ 32) 0, Address.ofIndices (2 ^ 32) 0, false, "=A1"⟩] := by
    have hview : t.view =
        ⟨[⟨false, List.replicate (2 ^ 32) ⟨none, "5"⟩ ++ [⟨some "=A1", ""⟩]⟩]⟩ := by
      unfold view viewWith
      simp only [t, List.map_cons, List.map_nil, List.map_append, List.map_replicate]
      rfl
    rw [hview]
    exact View.formulaCells_last (2 ^ 32) rfl rfl
  let a : Address := ⟨0, 0, by decide, by decide⟩
  -- The number of the last column does not fit a word, and its remainder is zero.
  have hplace : Address.ofIndices (2 ^ 32) 0 = a := by
    ext
    · exact Nat.mod_self _
    · rfl
  -- At that address the formula names itself.
  have houtcome : (t.view.snapshot.evaluate "=A1" a ∅).1 = .error .selfReference := by
    have hparse : Formula.parse "=A1" = .ok ⟨[.cell a]⟩ := by cbv
    rw [Snapshot.evaluate_eq Snapshot.sound_empty]
    exact Snapshot.outcomeWith_of_names ⟨_, hparse, List.mem_singleton_self _⟩
  have hshown : (t.view.recalculate {}).shown? 0 0 = some "Error" := by
    rw [Report.shown?, View.recalculate_eq_map, hcells, hplace, List.map_singleton,
      FormulaCell.result, houtcome, DisplayStyle.render_error]
    rfl
  refine ⟨⟨by rw [hfirst]; rfl, by rw [hfirst]; rfl⟩, ?_⟩
  rw [recalculated, Report.cell?_apply, hfirst, hshown]
  rfl

end Table

end Worksheet
