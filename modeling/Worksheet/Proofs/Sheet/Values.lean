import Worksheet.Proofs.Display
import Worksheet.Proofs.Recalculation.Repetition
import Worksheet.Proofs.Sheet.RoundTrip

/-!
# Sheets of values

A recalculated sheet is written as the texts that its cells display, and what is read again is a
sheet of data that displays the same texts. So there is nothing left to calculate: another pass
changes nothing, and what it writes is what was read.

No text that is displayed becomes a formula on the way. A cell that was read displays what was typed
in, or nothing if that was a formula, and a pass writes only displayed values. Where a pass writes
them does not matter for this, so no bound on the size of the table is needed.

## Main definitions

* `Table.texts`: What a table displays.
* `Table.ShowsData`: A table that displays nothing which could be taken for a formula.
* `Table.HasNoFormulas`: A table of data.
* `Sheet.recalculated`: A sheet with the results of a pass.

## Theorems

* `Table.recalculate_of_hasNoFormulas`: A pass over data reports nothing.
* `Sheet.showsData_recalculated`: What is displayed after a pass is data.
* `Sheet.read_recalculated`: A recalculated sheet is read back as what it displays.
* `Sheet.recalculated_of_hasNoFormulas`: Another pass changes nothing.
* `Sheet.write_reread`: What is read back is written as it was.
-/

namespace Worksheet

namespace Table

/-- The texts that the cells of a table display, row by row. -/
def texts (t : Table) : List (List String) := t.rows.map fun r => r.cells.map Cell.displayText

/-- Every text that is displayed is data. -/
def ShowsData (t : Table) : Prop := ∀ r ∈ t.rows, ∀ c ∈ r.cells, IsData c.displayText

/-- No cell has a formula, not even one that does not count. -/
def HasNoFormulas (t : Table) : Prop := ∀ r ∈ t.rows, ∀ c ∈ r.cells, c.formula = none

variable {t : Table}

theorem forall_cell?_iff {P : Cell → Prop} :
    (∀ col row c, t.cell? col row = some c → P c) ↔ ∀ r ∈ t.rows, ∀ c ∈ r.cells, P c := by
  constructor
  · intro h r hr c hc
    rcases List.mem_iff_getElem?.1 hr with ⟨row, hrow⟩
    rcases List.mem_iff_getElem?.1 hc with ⟨col, hcol⟩
    exact h col row c (Option.bind_eq_some_iff.2 ⟨r, hrow, hcol⟩)
  · intro h col row c hcell
    rcases Option.bind_eq_some_iff.1 hcell with ⟨r, hrow, hcol⟩
    exact h r (List.mem_of_getElem? hrow) c (List.mem_of_getElem? hcol)

/-- Over data a pass has nothing to report. -/
theorem recalculate_of_hasNoFormulas (h : t.HasNoFormulas) (options : RecalculationOptions) :
    t.view.recalculate options = ⟨[]⟩ := by
  have hcells : (t.view.recalculate options).cells = [] := by
    rw [View.recalculate_eq]
    refine List.filterMap_eq_nil_iff.2 fun place _ => ?_
    have hformula : t.view.formula? place.1 place.2 = none := by
      rw [formula?_view]
      cases hcell : t.cell? place.1 place.2 with
      | none => rfl
      | some c => simp [Cell.source?, forall_cell?_iff.2 h _ _ c hcell]
    rw [View.formulaCell?, hformula]
    rfl
  exact congrArg Report.mk hcells

end Table

/-- Writing data into a table that displays data leaves one that does. -/
theorem Report.showsData_apply {r : Report} {t : Table} (ht : t.ShowsData)
    (hr : ∀ c ∈ r.cells, IsData c.display) : (r.apply t).ShowsData := by
  refine Table.forall_cell?_iff.1 fun col row c hcell => ?_
  rw [cell?_apply, Option.map_eq_some_iff] at hcell
  rcases hcell with ⟨before, hbefore, rfl⟩
  cases hshown : r.shown? col row with
  | none => exact Table.forall_cell?_iff.2 ht col row before hbefore
  | some text =>
      -- What is shown in a cell is the display of a result.
      rcases Option.map_eq_some_iff.1 hshown with ⟨result, hresult, rfl⟩
      have hmem := List.mem_reverse.1 (List.mem_of_find?_eq_some hresult)
      simp only [Option.elim_some, Cell.displayText, Cell.withDisplayText, Content.plainText_run]
      exact hr result hmem

/-- No displayed result would be read as a formula, unless the currency setting makes it one. -/
theorem View.isData_recalculate {options : RecalculationOptions}
    (hcurrency : ∀ setting ∈ options.style.currency,
      (Text.trim setting.toList).head? ≠ some '=') (v : View) :
    ∀ c ∈ (v.recalculate options).cells, IsData c.display := by
  intro c hc
  rw [recalculate_eq_map] at hc
  rcases List.mem_map.1 hc with ⟨cell, _, rfl⟩
  exact DisplayStyle.isData_render hcurrency _

namespace Sheet

/-- A sheet with the results of a pass written into its table. -/
def recalculated (s : Sheet) (options : RecalculationOptions) : Sheet :=
  { s with table := (s.table.view.recalculate options).apply s.table }

variable {s : Sheet} {r r' : ReadOptions} {w : WriteOptions} {bytes : Text.Bytes}
  {options : RecalculationOptions}

theorem writtenText_values (hvalues : w.writeFormulas = false) :
    writtenText w = Cell.displayText := by
  funext c
  unfold writtenText
  cases c.source? with
  | none => rfl
  | some formula => simp [hvalues]

/-- Without formulas, a sheet is written as its header and the texts it shows. -/
theorem records_values (hwrite : w.writeHeader = true) (hvalues : w.writeFormulas = false)
    (s : Sheet) : s.records w = s.headers.toList ++ s.table.texts := by
  rw [records_eq hwrite, writtenText_values hvalues, Table.texts]

/-- What a sheet displays that was read is data. -/
theorem showsData_of_read (h : read r bytes = .ok s) : s.table.ShowsData := by
  rcases cases_of_read h with rfl | ⟨_, _, fields, hrows⟩
  · exact List.forall_mem_nil _
  · intro row hrow c hc
    rw [hrows] at hrow
    rcases List.mem_map.1 hrow with ⟨texts, _, rfl⟩
    rcases List.mem_map.1 hc with ⟨text, _, rfl⟩
    exact Cell.isData_ofInput text

/-- What a sheet displays after a pass is data. -/
theorem showsData_recalculated (h : read r bytes = .ok s)
    (hcurrency : ∀ setting ∈ options.style.currency,
      (Text.trim setting.toList).head? ≠ some '=') : (s.recalculated options).table.ShowsData :=
  Report.showsData_apply (showsData_of_read h) (View.isData_recalculate hcurrency _)

/-- A pass empties no row. -/
theorem Filled.recalculated (h : s.Filled) (options : RecalculationOptions) :
    (s.recalculated options).Filled := by
  refine ⟨h.header, fun row hrow hnil => ?_⟩
  -- The rows keep their widths, since a pass keeps the form of the table.
  have hform := Report.form_apply (s.table.view.recalculate options) s.table
  have hmem : (row.isTotal, row.cells.map Cell.formula) ∈ s.table.form := by
    rw [← hform]
    exact List.mem_map_of_mem hrow
  rcases List.mem_map.1 hmem with ⟨before, hbefore, heq⟩
  have hcells := congrArg Prod.snd heq
  rw [hnil] at hcells
  exact h.rows before hbefore (List.map_eq_nil_iff.1 hcells)

/-- A recalculated sheet is read back: the header is the same, and the cells are what their
    displayed texts are when they are typed in. -/
theorem read_recalculated (h : read r bytes = .ok s) (hd : r'.toDialect.Proper)
    (hdialect : w.toDialect = r'.toDialect) (hheader : r'.hasHeader = r.hasHeader)
    (hwrite : w.writeHeader = true)
    (hmark : ∀ field ∈ (s.recalculated options).firstField? w,
      field.toList.head? ≠ some '\uFEFF') :
    read r' ((s.recalculated options).write w) = .ok ((s.recalculated options).reread r' w) := by
  rcases cases_of_read h with rfl | ⟨hfilled, hsome, _⟩
  · have hnone : (Sheet.recalculated {} options).records w = [] := records_eq hwrite _
    refine read_write_of_records hd hdialect hwrite ?_ (fun hne => absurd hnone hne) hmark
    rw [hnone]
    exact List.forall_mem_nil _
  · have hfields := (hfilled.recalculated options).ne_nil_of_mem_records hwrite
    exact read_write_of_records hd hdialect hwrite hfields (fun _ => hheader.trans hsome) hmark

/-- What is read back for a sheet that displays data is this data. -/
theorem reread_values (hvalues : w.writeFormulas = false) (hdata : s.table.ShowsData) :
    (s.reread r w).table.HasNoFormulas ∧ (s.reread r w).table.texts = s.table.texts := by
  -- What is written of a cell is the text it shows, which is data and is read as such.
  have hcells : ∀ row ∈ s.table.rows,
      (rereadRow r w row).cells = row.cells.map fun c => Cell.ofText c.displayText := by
    intro row hrow
    refine List.map_congr_left fun c hc => ?_
    rw [writtenText_values hvalues, Cell.ofInput_of_isData (hdata row hrow c hc)]
  constructor
  · intro row hrow c hc
    rcases List.mem_map.1 hrow with ⟨before, hbefore, rfl⟩
    rw [hcells before hbefore] at hc
    rcases List.mem_map.1 hc with ⟨_, _, rfl⟩
    rfl
  · rw [Table.texts, reread, List.map_map, Table.texts]
    refine List.map_congr_left fun row hrow => ?_
    rw [Function.comp_apply, hcells row hrow, List.map_map]
    exact List.map_congr_left fun c _ => Content.plainText_run _

/-- A pass over data changes nothing. -/
theorem recalculated_of_hasNoFormulas (h : s.table.HasNoFormulas)
    (options : RecalculationOptions) : s.recalculated options = s := by
  rw [recalculated, Table.recalculate_of_hasNoFormulas h]
  rfl

/-- What was read back for a sheet that displays data is written like that sheet. -/
theorem write_reread (hwrite : w.writeHeader = true) (hvalues : w.writeFormulas = false)
    (hdata : s.table.ShowsData) : (s.reread r w).write w = s.write w := by
  rw [write, write, records_values hwrite hvalues, records_values hwrite hvalues,
    (reread_values hvalues hdata).2]
  rfl

end Sheet

end Worksheet
