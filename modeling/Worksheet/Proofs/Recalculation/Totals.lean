import Worksheet.Proofs.Recalculation.Placement

/-!
# Total rows never feed back

Total rows receive results and give none. The snapshot of a table is that of its data rows, and what
the formulas before it leave in a shared cache changes no result, so a data row has the results it
would have in a table without totals. A total row is evaluated by its number behind the data rows,
where the snapshot has nothing: its result depends on the data, on its own text, its column and the
number of totals above it, and on no total row.

All of this also holds of tables larger than the grid. There an address may stand for several
places, so results are looked up by their place in the document and not by their address.

## Main definitions

* `View.withoutTotals`: The data rows of a table as a table of their own.
* `View.formulaPlaces`, `View.result?`: The places that have a formula, and the result in a report
  that belongs to a place.

## Theorems

* `View.result?_eq`: The result at a place is that of its formula evaluated alone.
* `View.totals_never_feed_back`: What results depend on.
-/

namespace Worksheet

namespace View

/-- The data rows of a table as a table of their own. -/
def withoutTotals (v : View) : View := ⟨v.dataRows⟩

/-- The places of the document that have a formula, in document order. -/
def formulaPlaces (v : View) : List (Nat × Nat) :=
  v.places.filter fun place => (v.formula? place.1 place.2).isSome

/-- The result that belongs to the formula at a place of the document. The results of a report are
    in the order of the formulas. -/
def result? (v : View) (options : RecalculationOptions) (col row : Nat) : Option CellResult :=
  (v.formulaPlaces.zip (v.recalculate options).cells).lookup (col, row)

-- A list of what some keys have, looked up by these keys.
theorem lookup_zip_filterMap {α β : Type} [BEq α] [LawfulBEq α] (f : α → Option β) (l : List α)
    (k : α) : ((l.filter fun x => (f x).isSome).zip (l.filterMap f)).lookup k =
      if l.contains k then f k else none := by
  induction l with
  | nil => rfl
  | cons x rest ih =>
      rw [List.contains_cons]
      cases hx : f x with
      | none =>
          -- The key in front has no value and is left out of both lists.
          rw [List.filter_cons_of_neg (by rw [hx]; exact Bool.false_ne_true),
            List.filterMap_cons_none hx, ih]
          by_cases hk : (k == x) = true
          · rw [eq_of_beq hk, hx, ite_self, ite_self]
          · rw [Bool.eq_false_iff.2 hk, Bool.false_or]
      | some y =>
          rw [List.filter_cons_of_pos (by rw [hx]; rfl), List.filterMap_cons_some hx,
            List.zip_cons_cons, List.lookup_cons, ih]
          by_cases hk : (k == x) = true
          · rw [hk, Bool.true_or, eq_of_beq hk, hx]
            rfl
          · rw [Bool.eq_false_iff.2 hk, Bool.false_or]

variable {v w : View} {options options' : RecalculationOptions} {col row row' : Nat}
  {c c' : CellResult}

/-- The result at a place is that of its formula, evaluated alone. -/
theorem result?_eq (v : View) (options : RecalculationOptions) (col row : Nat) :
    v.result? options col row =
      (v.formulaCell? (col, row)).map (FormulaCell.result v.snapshot options) := by
  have hplaces : v.formulaPlaces = v.places.filter fun place =>
      ((v.formulaCell? place).map (FormulaCell.result v.snapshot options)).isSome := by
    refine List.filter_congr fun place _ => ?_
    rw [formulaCell?, Option.isSome_map, Option.isSome_map]
  rw [result?, recalculate_eq, hplaces, lookup_zip_filterMap]
  by_cases hmem : v.places.contains (col, row) = true
  · rw [if_pos hmem]
  · -- Where there is no cell there is no formula.
    rw [if_neg hmem]
    cases hformula : v.formula? col row with
    | none =>
        rw [formulaCell?, hformula]
        rfl
    | some formula =>
        exact absurd (List.contains_iff_mem.2 (mem_places_of_formula? hformula)) hmem

theorem dataRows_withoutTotals (v : View) : v.withoutTotals.dataRows = v.dataRows := by
  rw [dataRows, withoutTotals, dataRows, List.filter_filter]
  simp only [Bool.and_self]

/-- The snapshot of a view is made from its data rows alone. -/
theorem snapshot_congr (h : v.dataRows = w.dataRows) : v.snapshot = w.snapshot := by
  rw [snapshot, snapshot, formulas, formulas, h]

-- A data row is found among the data rows by the number of those above it.
theorem getElem?_dataRows {r : Row} (hr : v.rows[row]? = some r) (hdata : r.isTotal = false) :
    v.dataRows[v.dataAbove row]? = some r := by
  have hplacement : v.placements[row]? = some ⟨r, row, v.evaluationRow row⟩ := by
    rw [getElem?_placements, hr, Option.map_some]
  rcases getElem?_of_mem_placementsFrom (List.mem_of_getElem? hplacement) hdata with
    ⟨k, hk, hfound⟩
  -- The number of a data row in the evaluation is how many data rows are above it.
  have hrow : v.dataAbove row = k := by
    rw [← evaluationRow_of_data ((isTotalAt_eq hr).trans hdata), ← Nat.zero_add k]
    exact hk
  rw [hrow]
  exact hfound

/-- A data row moves up by the total rows above it. -/
theorem rows_withoutTotals (h : v.isTotalAt row = false) :
    v.withoutTotals.rows[v.dataAbove row]? = v.rows[row]? := by
  cases hr : v.rows[row]? with
  | some r => exact getElem?_dataRows hr ((isTotalAt_eq hr).symm.trans h)
  | none =>
      -- Below the document all data rows are above.
      rw [dataAbove, List.take_of_length_le (List.getElem?_eq_none_iff.1 hr), ← length_dataRows]
      exact List.getElem?_eq_none (Nat.le_refl _)

/-- Without total rows, no row is one. -/
theorem isTotalAt_withoutTotals (v : View) (i : Nat) : v.withoutTotals.isTotalAt i = false := by
  rw [isTotalAt]
  cases hr : v.withoutTotals.rows[i]? with
  | none => rfl
  | some r =>
      have hmem := (List.mem_filter.1 (List.mem_of_getElem? hr)).2
      rw [Option.any_some]
      simpa only [Bool.not_eq_true'] using hmem

theorem dataAbove_withoutTotals {i : Nat} (h : i ≤ v.dataRows.length) :
    v.withoutTotals.dataAbove i = i := by
  have hall : ∀ r ∈ v.dataRows.take i, (!r.isTotal) = true := fun r hr =>
    (List.mem_filter.1 (List.mem_of_mem_take hr)).2
  rw [dataAbove, withoutTotals, List.countP_eq_length.2 hall, List.length_take, Nat.min_eq_left h]

theorem dataAbove_le (v : View) (row : Nat) : v.dataAbove row ≤ v.dataRows.length := by
  rw [length_dataRows]
  exact (List.take_sublist _ _).countP_le

/-- The formula of a data row in the table without totals: the same one, evaluated in the same cell,
    though it stands elsewhere in the document. -/
theorem formulaCell?_withoutTotals (h : v.isTotalAt row = false) :
    v.withoutTotals.formulaCell? (col, v.dataAbove row) =
      (v.formulaCell? (col, row)).map fun cell =>
        { cell with address := Address.ofIndices col (v.dataAbove row) } := by
  have hformula : v.withoutTotals.formula? col (v.dataAbove row) = v.formula? col row := by
    rw [formula?, formula?, cell?, cell?, rows_withoutTotals h]
  have hrow : v.withoutTotals.evaluationRow (v.dataAbove row) = v.evaluationRow row := by
    rw [evaluationRow_of_data (isTotalAt_withoutTotals _ _), evaluationRow_of_data h,
      dataAbove_withoutTotals (dataAbove_le _ _)]
  rw [formulaCell?, formulaCell?, hformula, Option.map_map, hrow, isTotalAt_withoutTotals, h]
  rfl

/-- A result in a total row, by what it depends on. -/
theorem outcome_of_total (h : v.isTotalAt row = true) (hc : v.result? options col row = some c) :
    c.outcome = (v.snapshot.evaluate c.formula
      (Address.ofIndices col (v.dataRows.length + v.totalsAbove row)) ∅).1 ∧
      c.display = options.style.render c.outcome := by
  rw [result?_eq, formulaCell?, Option.map_map, Option.map_eq_some_iff] at hc
  rcases hc with ⟨formula, _, rfl⟩
  rw [← evaluationRow_of_total h]
  exact ⟨rfl, rfl⟩

/-- The data rows of a table alone have the snapshot of the table, and in a pass over them every
    formula has the result it has in a pass over the table. A formula in a total row has the same
    result in any two tables with the same data rows, as long as it is the same text in the same
    column with as many total rows above it. -/
theorem totals_never_feed_back (v : View) (options : RecalculationOptions) :
    v.withoutTotals.snapshot = v.snapshot ∧
      (∀ col row, v.isTotalAt row = false →
        v.withoutTotals.result? options col (v.dataAbove row) =
          (v.result? options col row).map fun c =>
            { c with address := Address.ofIndices col (v.dataAbove row) }) ∧
      ∀ (w : View) (options' : RecalculationOptions), w.dataRows = v.dataRows →
        ∀ col row row', v.isTotalAt row = true → w.isTotalAt row' = true →
          v.totalsAbove row = w.totalsAbove row' →
          ∀ c c', v.result? options col row = some c → w.result? options' col row' = some c' →
            c.formula = c'.formula → c.outcome = c'.outcome ∧
              (options.style = options'.style → c.display = c'.display) := by
  refine ⟨snapshot_congr (dataRows_withoutTotals v), fun col row hdata => ?_, ?_⟩
  · rw [result?_eq, result?_eq, formulaCell?_withoutTotals hdata,
      snapshot_congr (dataRows_withoutTotals v), Option.map_map, Option.map_map]
    rfl
  · intro w options' hrows col row row' htotal htotal' habove c c' hc hc' hformula
    rcases outcome_of_total htotal hc with ⟨houtcome, hdisplay⟩
    rcases outcome_of_total htotal' hc' with ⟨houtcome', hdisplay'⟩
    -- The outcome depends on the data rows, on how many totals are above, and on the formula.
    have hsame : c.outcome = c'.outcome := by
      rw [houtcome, houtcome', snapshot_congr hrows, hrows, habove, hformula]
    refine ⟨hsame, fun hstyle => ?_⟩
    rw [hdisplay, hdisplay', hsame, hstyle]

-- One data row, and a sum below it with another total row above or between.
theorem totals_never_feed_back_for_sum :
    let data : Row := ⟨false, [⟨none, "5"⟩, ⟨some "=A1*2", ""⟩]⟩
    let sum : Row := ⟨true, [⟨some "=SUM(A1:B9)", ""⟩]⟩
    let v : View := ⟨[⟨true, [⟨some "=A1", ""⟩]⟩, data, sum]⟩
    let w : View := ⟨[data, ⟨true, [⟨none, "99"⟩]⟩, sum]⟩
    v.isTotalAt 1 = false ∧
      v.withoutTotals.result? {} 1 (v.dataAbove 1) =
        (v.result? {} 1 1).map (fun c => { c with address := Address.ofIndices 1 0 }) ∧
      v.result? {} 1 1 ≠ none ∧
      ∃ c c', v.result? {} 0 2 = some c ∧ w.result? {} 0 2 = some c' ∧ c.formula = c'.formula ∧
        c.outcome = c'.outcome ∧ c.display = c'.display := by
  intro data sum v w
  have hapart := totals_never_feed_back v {}
  refine ⟨rfl, hapart.2.1 1 1 rfl, ?_, ?_⟩
  · rw [result?_eq]
    exact Option.some_ne_none _
  · -- The snapshots are not evaluated: both results come from one formula, over the same data.
    have hv : v.result? {} 0 2 = some (FormulaCell.result v.snapshot {}
        ⟨Address.ofIndices 0 2, Address.ofIndices 0 2, true, "=SUM(A1:B9)"⟩) := result?_eq v {} 0 2
    have hw : w.result? {} 0 2 = some (FormulaCell.result w.snapshot {}
        ⟨Address.ofIndices 0 2, Address.ofIndices 0 2, true, "=SUM(A1:B9)"⟩) := result?_eq w {} 0 2
    rcases hapart.2.2 w {} rfl 0 2 2 rfl rfl rfl _ _ hv hw rfl with ⟨houtcome, hdisplay⟩
    exact ⟨_, _, hv, hw, rfl, houtcome, hdisplay rfl⟩

end View

end Worksheet
