import Worksheet.Proofs.Range.Order
import Worksheet.Proofs.Recalculation

/-!
# Where formulas are evaluated

A pass goes through the document with counters for the row of the document, the next data row and
the next total row. What they come to can be said without going through it: a data row is evaluated
at the number of data rows above it, and a total row behind all data rows, by the number of total
rows above it. So no two rows are evaluated at one place, and the data rows fill the snapshot.

## Main definitions

* `View.cell?`, `View.formula?`: The cell at a place of the document, and its formula.
* `View.dataAbove`, `View.totalsAbove`: How many rows of each kind stand above a row.
* `View.evaluationRow`: The row that the formulas of a row are evaluated at.
* `View.places`: All places of the document that have a cell, in order.
* `View.formulaCell?`: The formula at a place, with the place it is evaluated at.

## Theorems

* `View.getElem?_placements`: The counters of a pass.
* `View.formulaCells_eq`: A pass meets the formulas of all places in order.
* `View.recalculate_eq`: It evaluates each of them alone.
* `View.evaluationRow_injective`: No two rows are evaluated at one place.
-/

namespace Worksheet

namespace View

/-- The cell in a column of a row, both counted in the document. -/
def cell? (v : View) (col row : Nat) : Option Cell := v.rows[row]?.bind fun r => r.cells[col]?

/-- The formula of the cell in a column of a row, if it has one that starts with the equals sign. -/
def formula? (v : View) (col row : Nat) : Option String := (v.cell? col row).bind Cell.computed?

/-- Whether a row of the document is a total row. -/
def isTotalAt (v : View) (row : Nat) : Bool := v.rows[row]?.any Row.isTotal

/-- The number of data rows above a row of the document. -/
def dataAbove (v : View) (row : Nat) : Nat := (v.rows.take row).countP fun r => !r.isTotal

/-- The number of total rows above a row of the document. -/
def totalsAbove (v : View) (row : Nat) : Nat := (v.rows.take row).countP Row.isTotal

/-- The row that the formulas of a row of the document are evaluated at. -/
def evaluationRow (v : View) (row : Nat) : Nat :=
  if v.isTotalAt row then v.dataRows.length + v.totalsAbove row else v.dataAbove row

/-- The column and the row of every cell, in document order. -/
def places (v : View) : List (Nat × Nat) :=
  v.rows.zipIdx.flatMap fun (r, row) => r.cells.zipIdx.map fun (_, col) => (col, row)

/-- The formula at a place of the document, if there is one. -/
def formulaCell? (v : View) (place : Nat × Nat) : Option FormulaCell :=
  (v.formula? place.1 place.2).map fun formula =>
    { address := Address.ofIndices place.1 place.2
      position := Address.ofIndices place.1 (v.evaluationRow place.2)
      isTotal := v.isTotalAt place.2
      formula := formula }

variable {v : View} {col row row' : Nat} {r : Row}

theorem isTotalAt_eq (h : v.rows[row]? = some r) : v.isTotalAt row = r.isTotal := by
  rw [isTotalAt, h, Option.any_some]

-- Each counter is where it started, and further by the rows of its kind that were met.
theorem getElem?_placementsFrom (documentRow dataRow totalRow : Nat) (rows : List Row) (i : Nat) :
    (placementsFrom documentRow dataRow totalRow rows)[i]? = rows[i]?.map fun r =>
      { row := r
        documentRow := documentRow + i
        evaluationRow :=
          if r.isTotal then totalRow + (rows.take i).countP Row.isTotal
          else dataRow + (rows.take i).countP fun r => !r.isTotal } := by
  induction rows generalizing documentRow dataRow totalRow i with
  | nil => rfl
  | cons first rest ih =>
      -- The row in front raises one of the two counters, for all rows behind it.
      rw [placementsFrom]
      cases i with
      | zero =>
          by_cases hfirst : first.isTotal = true
          · simp only [hfirst, if_true, List.getElem?_cons_zero, Option.map_some, List.take_zero,
              List.countP_nil, Nat.add_zero]
          · simp only [hfirst, if_false, Bool.false_eq_true, List.getElem?_cons_zero,
              Option.map_some, List.take_zero, List.countP_nil, Nat.add_zero]
      | succ i =>
          by_cases hfirst : first.isTotal = true
          · simp only [hfirst, if_true, List.getElem?_cons_succ, ih, List.take_succ_cons,
              List.countP_cons, Bool.not_true, Bool.false_eq_true, if_false, Nat.add_zero,
              Nat.add_assoc, Nat.add_comm 1]
          · simp only [hfirst, if_false, Bool.false_eq_true, List.getElem?_cons_succ, ih,
              List.take_succ_cons, List.countP_cons, Bool.not_false, if_true, Nat.add_zero,
              Nat.add_assoc, Nat.add_comm 1]

/-- The placement of a row has its number in the document and its number in the evaluation. -/
theorem getElem?_placements (v : View) (i : Nat) : v.placements[i]? = v.rows[i]?.map fun r =>
    { row := r, documentRow := i, evaluationRow := v.evaluationRow i } := by
  rw [placements, getElem?_placementsFrom]
  cases hr : v.rows[i]? with
  | none => rfl
  | some r =>
      rw [Option.map_some, Option.map_some, evaluationRow, isTotalAt_eq hr, totalsAbove, dataAbove,
        Nat.zero_add, Nat.zero_add]

theorem placements_eq (v : View) : v.placements = v.rows.zipIdx.map fun (r, row) =>
    { row := r, documentRow := row, evaluationRow := v.evaluationRow row } := by
  refine List.ext_getElem? fun i => ?_
  rw [getElem?_placements, List.getElem?_map, List.getElem?_zipIdx, Option.map_map, Nat.zero_add]
  rfl

/-- A pass meets the formulas of all places, in document order. -/
theorem formulaCells_eq (v : View) : v.formulaCells = v.places.filterMap v.formulaCell? := by
  rw [formulaCells, placements_eq, places, List.flatMap_map, List.filterMap_flatMap]
  refine List.flatMap_congr fun p hp => ?_
  rcases p with ⟨r, row⟩
  have hr := List.mk_mem_zipIdx_iff_getElem?.1 hp
  rw [List.filterMap_map]
  refine List.filterMap_congr fun q hq => ?_
  rcases q with ⟨c, col⟩
  have hc := List.mk_mem_zipIdx_iff_getElem?.1 hq
  -- The cell of the row is the one that is found at its place.
  have hformula : v.formula? col row = c.computed? := by
    rw [formula?, cell?, hr, Option.bind_some, hc, Option.bind_some]
  rw [Function.comp_apply, formulaCell?, hformula, isTotalAt_eq hr]

/-- The results of a pass are those of the formulas of all places, each evaluated alone. -/
theorem recalculate_eq (v : View) (options : RecalculationOptions) :
    (v.recalculate options).cells = v.places.filterMap fun place =>
      (v.formulaCell? place).map (FormulaCell.result v.snapshot options) := by
  rw [recalculate_eq_map, formulaCells_eq, List.map_filterMap]

/-- The places of a view are those where it has a cell. -/
theorem mem_places_iff : (col, row) ∈ v.places ↔ (v.cell? col row).isSome = true := by
  rw [places, List.mem_flatMap, cell?]
  constructor
  · rintro ⟨⟨r, _⟩, hr, hcell⟩
    rcases List.mem_map.1 hcell with ⟨⟨c, _⟩, hc, hplace⟩
    cases hplace
    rw [List.mk_mem_zipIdx_iff_getElem?] at hr hc
    rw [hr, Option.bind_some, hc, Option.isSome_some]
  · intro h
    rcases Option.isSome_iff_exists.1 h with ⟨c, hcell⟩
    rcases Option.bind_eq_some_iff.1 hcell with ⟨r, hr, hc⟩
    refine ⟨(r, row), List.mk_mem_zipIdx_iff_getElem?.2 hr, List.mem_map.2 ⟨(c, col), ?_, rfl⟩⟩
    exact List.mk_mem_zipIdx_iff_getElem?.2 hc

/-- A formula stands at a place of the view. -/
theorem mem_places_of_formula? {formula : String} (h : v.formula? col row = some formula) :
    (col, row) ∈ v.places := by
  rcases Option.bind_eq_some_iff.1 h with ⟨c, hc, _⟩
  rw [mem_places_iff, hc, Option.isSome_some]

/-- Places come row by row and from left to right. -/
theorem pairwise_places (v : View) :
    v.places.Pairwise fun p q => p.2 < q.2 ∨ p.2 = q.2 ∧ p.1 < q.1 := by
  -- In order within a row, and rows in order.
  rw [places, List.pairwise_flatMap]
  constructor
  · rintro ⟨r, row⟩ _
    rw [List.pairwise_map]
    exact (pairwise_zipIdx r.cells).imp fun hlt => Or.inr ⟨rfl, hlt⟩
  · refine (pairwise_zipIdx v.rows).imp fun hlt => ?_
    intro p hp q hq
    rcases List.mem_map.1 hp with ⟨_, _, rfl⟩
    rcases List.mem_map.1 hq with ⟨_, _, rfl⟩
    exact Or.inl hlt

-- A row of a kind is counted for every row below it.
theorem countP_take_lt {p : Row → Bool} {rows : List Row} (h : row < row')
    (hr : rows[row]? = some r) (hp : p r = true) :
    (rows.take row).countP p < (rows.take row').countP p := by
  have hnext : (rows.take (row + 1)).countP p = (rows.take row).countP p + 1 := by
    rw [List.take_add_one, hr, List.countP_append]
    simp only [Option.toList_some, List.countP_singleton, hp, if_true]
  have hle : (rows.take (row + 1)).countP p ≤ (rows.take row').countP p :=
    (List.take_sublist_take_left h).countP_le
  omega

theorem length_dataRows : v.dataRows.length = v.rows.countP fun r => !r.isTotal :=
  List.countP_eq_length_filter.symm

/-- Every row is a data row or a total row. -/
theorem length_rows : v.rows.length = v.dataRows.length + v.rows.countP Row.isTotal := by
  rw [length_dataRows, List.length_eq_countP_add_countP Row.isTotal, Nat.add_comm]
  simp only [Bool.not_eq_true, Bool.decide_eq_false]

/-- A data row is numbered among the data rows. -/
theorem evaluationRow_of_data (h : v.isTotalAt row = false) :
    v.evaluationRow row = v.dataAbove row := by
  rw [evaluationRow, if_neg (Bool.eq_false_iff.1 h)]

/-- Total rows are numbered behind all data rows. -/
theorem evaluationRow_of_total (h : v.isTotalAt row = true) :
    v.evaluationRow row = v.dataRows.length + v.totalsAbove row := by
  rw [evaluationRow, if_pos h]

theorem dataAbove_lt (hr : v.rows[row]? = some r) (h : r.isTotal = false) :
    v.dataAbove row < v.dataRows.length := by
  rcases List.getElem?_eq_some_iff.1 hr with ⟨hrow, _⟩
  have hlt := countP_take_lt (p := fun r => !r.isTotal) hrow hr (by rw [h, Bool.not_false])
  rw [List.take_length] at hlt
  rw [length_dataRows]
  exact hlt

theorem totalsAbove_lt (hr : v.rows[row]? = some r) (h : r.isTotal = true) :
    v.totalsAbove row < v.rows.countP Row.isTotal := by
  rcases List.getElem?_eq_some_iff.1 hr with ⟨hrow, _⟩
  have hlt := countP_take_lt hrow hr h
  rw [List.take_length] at hlt
  exact hlt

/-- There are no more places for evaluation than rows. -/
theorem evaluationRow_lt (hr : v.rows[row]? = some r) : v.evaluationRow row < v.rows.length := by
  rw [length_rows]
  cases h : r.isTotal with
  | false =>
      have hlt := dataAbove_lt hr h
      rw [evaluationRow_of_data ((isTotalAt_eq hr).trans h)]
      omega
  | true =>
      have hlt := totalsAbove_lt hr h
      rw [evaluationRow_of_total ((isTotalAt_eq hr).trans h)]
      omega

/-- No two rows are evaluated under the same number. -/
theorem evaluationRow_ne_of_lt {r' : Row} (hr : v.rows[row]? = some r)
    (hr' : v.rows[row']? = some r') (hlt : row < row') :
    v.evaluationRow row ≠ v.evaluationRow row' := by
  -- Rows of one kind are counted, and rows of different kinds are kept apart by the data rows.
  cases h : r.isTotal with
  | false =>
      have hdata := dataAbove_lt hr h
      have hmore := countP_take_lt (p := fun r => !r.isTotal) hlt hr (by rw [h, Bool.not_false])
      rw [evaluationRow_of_data ((isTotalAt_eq hr).trans h)]
      cases h' : r'.isTotal with
      | false =>
          rw [evaluationRow_of_data ((isTotalAt_eq hr').trans h')]
          exact Nat.ne_of_lt hmore
      | true =>
          rw [evaluationRow_of_total ((isTotalAt_eq hr').trans h')]
          omega
  | true =>
      have hmore := countP_take_lt hlt hr h
      rw [evaluationRow_of_total ((isTotalAt_eq hr).trans h)]
      cases h' : r'.isTotal with
      | false =>
          have hdata := dataAbove_lt hr' h'
          rw [evaluationRow_of_data ((isTotalAt_eq hr').trans h')]
          omega
      | true =>
          rw [evaluationRow_of_total ((isTotalAt_eq hr').trans h')]
          unfold totalsAbove
          omega

/-- No two rows are evaluated at one place. -/
theorem evaluationRow_injective {r' : Row} (hr : v.rows[row]? = some r)
    (hr' : v.rows[row']? = some r') (h : v.evaluationRow row = v.evaluationRow row') :
    row = row' := by
  rcases Nat.lt_trichotomy row row' with hlt | heq | hgt
  · exact absurd h (evaluationRow_ne_of_lt hr hr' hlt)
  · exact heq
  · exact absurd h.symm (evaluationRow_ne_of_lt hr' hr hgt)

end View

end Worksheet
