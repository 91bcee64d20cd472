import Mathlib.Data.List.Forall2
import Worksheet.Proofs.Snapshot.Extraction

/-!
# What a snapshot captures

The snapshot of a table is determined by its data rows, place by place. Rows of the snapshot are the
data rows in their order, filled up to the width of the widest; a computed cell gives its formula
and no number, every other cell the number in its text, and a place behind the end of a row nothing.
The map of formulas is kept under written forms, so it has no fewer entries than there are formulas
only because no two cells of a table that fits the grid share one.

Nothing else of the table matters: neither the text that a computed cell shows nor anything in total
rows.

## Main definitions

* `Snapshot.entry?`: What stands at a place of the grid of numbers.
* `Snapshot.Captures`: What a snapshot has to say about a table.
* `View.Cell.Alike`, `View.Alike`: Cells and tables that a snapshot cannot tell apart.

## Theorems

* `Snapshot.widest_cases`: The width of the widest row is that of some row.
* `View.entry?_snapshot`: What stands at a place of the snapshot of a table.
* `View.pairwise_formulas`: No two formulas are listed under one key.
* `View.length_formulas`: How many formulas are listed.
* `View.snapshot_captures`: A snapshot captures the data rows and nothing else.
-/

namespace Worksheet

namespace Snapshot

/-- What stands at a place of the grid of numbers: a number, nothing, or no place at all. -/
def entry? (s : Snapshot) (col row : Nat) : Option (Option Float) :=
  s.rows[row]?.bind fun values => values[col]?

/-- What a snapshot has to say about a table. -/
structure Captures (s : Snapshot) (v : View) : Prop where
  /-- There is a row for each data row. -/
  height : s.height = v.dataRows.length
  /-- No data row has more cells than there are columns. -/
  le_width : ∀ r ∈ v.dataRows, r.cells.length ≤ s.width
  /-- Some data row has as many, if there are any columns. -/
  width : s.width = 0 ∨ ∃ r ∈ v.dataRows, r.cells.length = s.width
  /-- Every row has all columns. -/
  length_eq : ∀ values ∈ s.rows, values.length = s.width
  /-- A cell that is not computed has the number in its text, if there is one. -/
  data : ∀ col row c, v.cellAt? col row = some c → c.computed? = none →
    s.entry? col row = some (readNumber c.text)
  /-- A computed cell has no number. -/
  computed : ∀ col row c, v.cellAt? col row = some c → c.computed?.isSome = true →
    s.entry? col row = some none
  /-- Neither has a place behind the end of its row. -/
  behind : ∀ col row r, v.dataRows[row]? = some r → r.cells.length ≤ col → col < s.width →
    s.entry? col row = some none
  /-- A formula is found under the written form of the address of a cell that it computes, and the
      map has no other entry. -/
  listed : ∀ key text, s.formulas[key]? = some text ↔
    ∃ (a : Address) (c : View.Cell), key = a.text ∧ v.cellAt? a.col a.row = some c ∧
      c.computed? = some text
  /-- There are as many entries as computed cells. -/
  counted : s.formulas.size = (v.dataRows.flatMap View.Row.cells).countP fun c => c.computed?.isSome
  /-- No address has both a number and a formula. -/
  apart : ∀ a, s.value? a = none ∨ s.formula? a = none

-- The greatest of several numbers is one of them, unless the start is.
theorem foldl_max_cases (ns : List Nat) (m : Nat) :
    ns.foldl max m = m ∨ ns.foldl max m ∈ ns := by
  induction ns generalizing m with
  | nil => exact Or.inl rfl
  | cons k rest ih =>
      rw [List.foldl_cons]
      rcases ih (max m k) with h | h
      · rcases Nat.le_total m k with hle | hle
        · rw [h, Nat.max_eq_right hle]
          exact Or.inr List.mem_cons_self
        · rw [h, Nat.max_eq_left hle]
          exact Or.inl rfl
      · exact Or.inr (List.mem_cons_of_mem _ h)

/-- The width of the widest row is that of some row, unless there is none. -/
theorem widest_cases (rows : List (List (Option Float))) :
    widest rows = 0 ∨ ∃ row ∈ rows, row.length = widest rows := by
  rcases foldl_max_cases (rows.map List.length) 0 with h | h
  · exact Or.inl h
  · exact Or.inr (List.mem_map.1 h)

end Snapshot

namespace View

/-- Two cells that a snapshot cannot tell apart: both are computed by one formula, or neither is
    computed and they show one text. -/
structure Cell.Alike (c c' : Cell) : Prop where
  /-- They are computed by one formula, or neither is. -/
  computed? : c.computed? = c'.computed?
  /-- Where nothing is computed the text is the same. -/
  text : c.computed? = none → c.text = c'.text

/-- Two tables whose data rows have alike cells at the same places. -/
def Alike (v w : View) : Prop :=
  List.Forall₂ (fun r r' => List.Forall₂ Cell.Alike r.cells r'.cells) v.dataRows w.dataRows

variable {v w : View} {col row : Nat} {r : Row} {c c' : Cell}

/-- A place of the snapshot has the number of the cell there, and none behind the end of a row. -/
theorem entry?_snapshot (hr : v.dataRows[row]? = some r) (hcol : col < v.snapshot.width) :
    v.snapshot.entry? col row = some (r.cells[col]?.bind Cell.number?) := by
  have hvalues : v.snapshot.rows[row]? =
      some (Snapshot.filled v.snapshot.width (r.cells.map Cell.number?)) := by
    change ((v.dataRows.map _).map (Snapshot.filled _))[row]? = _
    rw [List.getElem?_map, List.getElem?_map, hr]
    rfl
  rw [Snapshot.entry?, hvalues, Option.bind_some, Snapshot.filled]
  -- Rows are filled up to the width, with blanks behind their own cells.
  by_cases hcell : col < r.cells.length
  · rw [List.getElem?_append_left (by simpa only [List.length_map] using hcell),
      List.getElem?_map, List.getElem?_eq_getElem hcell]
    rfl
  · have hbehind : r.cells.length ≤ col := Nat.le_of_not_lt hcell
    rw [List.getElem?_append_right (by simpa only [List.length_map] using hbehind),
      List.getElem?_replicate, List.length_map, if_pos (by omega), List.getElem?_eq_none hbehind]
    rfl

/-- No data row is wider than the snapshot. -/
theorem length_le_width (hr : r ∈ v.dataRows) : r.cells.length ≤ v.snapshot.width := by
  have hle := Snapshot.length_le_widest
    (List.mem_map_of_mem (f := fun r => r.cells.map Cell.number?) hr)
  rw [List.length_map] at hle
  exact hle

/-- A snapshot holds the plain number of each cell, at its place. -/
theorem entry?_of_cellAt? (hcell : v.cellAt? col row = some c) :
    v.snapshot.entry? col row = some c.number? := by
  rcases Option.bind_eq_some_iff.1 hcell with ⟨r, hr, hc⟩
  have hlength := (List.getElem?_eq_some_iff.1 hc).1
  have hwidth := length_le_width (List.mem_of_getElem? hr)
  rw [entry?_snapshot hr (by omega), hc, Option.bind_some]

-- Places of the grid that differ have written forms that differ.
theorem text_ofIndices_ne {col' row' : Nat} (hcol : col < Column.limit) (hrow : row < Column.limit)
    (hcol' : col' < Column.limit) (hrow' : row' < Column.limit) (hne : col ≠ col' ∨ row ≠ row') :
    ((Address.ofIndices col row).text == (Address.ofIndices col' row').text) = false := by
  rw [beq_eq_false_iff_ne]
  intro htext
  have hsame := (Address.ofIndices_eq_iff hcol hrow).1 (Address.text_injective htext)
  simp only [Address.ofIndices, Nat.mod_eq_of_lt hcol', Nat.mod_eq_of_lt hrow'] at hsame
  omega

/-- In a table that fits, no two formulas are listed under one key. -/
theorem pairwise_formulas (h : v.Fits) : v.formulas.Pairwise fun e e' => (e.1 == e'.1) = false := by
  have hcols : ∀ p ∈ v.dataRows.zipIdx, ∀ q ∈ p.1.cells.zipIdx, q.2 < Column.limit := by
    intro p hp q hq
    have hle := h.cols p.1 (List.fst_mem_of_mem_zipIdx hp)
    have hlt := List.snd_lt_of_mem_zipIdx hq
    omega
  have hrows : ∀ p ∈ v.dataRows.zipIdx, p.2 < Column.limit := by
    intro p hp
    have hlt := List.snd_lt_of_mem_zipIdx hp
    have hle := h.rows
    omega
  rw [formulas, List.pairwise_flatMap]
  constructor
  -- Within a row the columns differ.
  · intro p hp
    change (p.1.formulas p.2).Pairwise _
    rw [Row.formulas, List.pairwise_filterMap]
    refine (pairwise_zipIdx p.1.cells).imp_of_mem fun hq hq' hlt e he e' he' => ?_
    rcases Option.map_eq_some_iff.1 he with ⟨_, _, rfl⟩
    rcases Option.map_eq_some_iff.1 he' with ⟨_, _, rfl⟩
    exact text_ofIndices_ne (hcols p hp _ hq) (hrows p hp) (hcols p hp _ hq') (hrows p hp)
      (Or.inl (Nat.ne_of_lt hlt))
  -- Between rows the rows do.
  · refine (pairwise_zipIdx v.dataRows).imp_of_mem fun hp hp' hlt e he e' he' => ?_
    rcases List.mem_filterMap.1 he with ⟨q, hq, he⟩
    rcases List.mem_filterMap.1 he' with ⟨q', hq', he'⟩
    rcases Option.map_eq_some_iff.1 he with ⟨_, _, rfl⟩
    rcases Option.map_eq_some_iff.1 he' with ⟨_, _, rfl⟩
    exact text_ofIndices_ne (hcols _ hp _ hq) (hrows _ hp) (hcols _ hp' _ hq') (hrows _ hp')
      (Or.inr (Nat.ne_of_lt hlt))

/-- The formulas of the data rows are listed from what their cells are computed by alone. -/
theorem formulas_eq (v : View) : v.formulas =
    (v.dataRows.map fun r => r.cells.map Cell.computed?).zipIdx.flatMap fun (cells, row) =>
      cells.zipIdx.filterMap fun (computed, col) =>
        computed.map fun formula => ((Address.ofIndices col row).text, formula) := by
  rw [formulas, List.zipIdx_map, List.flatMap_map]
  refine List.flatMap_congr fun p _ => ?_
  simp only [Prod.map, id_eq, List.zipIdx_map, List.filterMap_map]
  rfl

/-- There are as many formulas as computed cells. -/
theorem length_formulas (v : View) :
    v.formulas.length = (v.dataRows.flatMap Row.cells).countP fun c => c.computed?.isSome := by
  have hrow : ∀ (r : Row) (i : Nat),
      (r.formulas i).length = r.cells.countP fun c => c.computed?.isSome := by
    intro r i
    conv_rhs => rw [← List.zipIdx_map_fst 0 r.cells, List.countP_map]
    rw [Row.formulas, List.length_filterMap_eq_countP]
    exact List.countP_congr fun p _ => by rw [Option.isSome_map]; rfl
  conv_rhs => rw [← List.zipIdx_map_fst 0 v.dataRows, List.flatMap_map, List.countP_flatMap]
  rw [formulas, List.length_flatMap]
  exact congrArg List.sum (List.map_congr_left fun p _ => hrow p.1 p.2)

section Alike

-- Related lists are mapped to one list by functions that agree on related elements.
theorem map_eq_of_forall₂ {α β γ : Type} {R : α → β → Prop} {f : α → γ} {g : β → γ}
    {as : List α} {bs : List β} (h : List.Forall₂ R as bs) (hfg : ∀ a b, R a b → f a = g b) :
    as.map f = bs.map g := by
  induction h with
  | nil => rfl
  | cons hhead _ ih => rw [List.map_cons, List.map_cons, hfg _ _ hhead, ih]

theorem map_cells_of_alike {γ : Type} {f : Cell → γ} (h : v.Alike w)
    (hf : ∀ c c' : Cell, c.Alike c' → f c = f c') :
    (v.dataRows.map fun r => r.cells.map f) = w.dataRows.map fun r => r.cells.map f :=
  map_eq_of_forall₂ h fun _ _ hrow => map_eq_of_forall₂ hrow hf

theorem number?_eq_of_alike (h : c.Alike c') : c.number? = c'.number? := by
  rw [Cell.number?, Cell.number?, ← h.computed?]
  by_cases hcomputed : c.computed?.isSome = true
  · rw [if_pos hcomputed, if_pos hcomputed]
  · rw [if_neg hcomputed, if_neg hcomputed,
      h.text (Option.not_isSome_iff_eq_none.1 hcomputed)]

/-- A snapshot does not tell tables apart that differ only in total rows and in the text of computed
    cells. -/
theorem snapshot_eq_of_alike (h : v.Alike w) : v.snapshot = w.snapshot := by
  have hnumbers := map_cells_of_alike h fun c c' => number?_eq_of_alike
  have hformulas : v.formulas = w.formulas := by
    rw [formulas_eq, formulas_eq, map_cells_of_alike h fun c c' hcell => hcell.computed?]
  rw [snapshot, snapshot, hnumbers, hformulas]

end Alike

/-- The snapshot of a table that fits the grid captures its data rows, place by place, and nothing
    else: it is the snapshot of every table that has alike cells in its data rows. -/
theorem snapshot_captures (v : View) (h : v.Fits) :
    v.snapshot.Captures v ∧ ∀ w : View, v.Alike w → w.snapshot = v.snapshot := by
  refine ⟨?_, fun w halike => (snapshot_eq_of_alike halike).symm⟩
  refine
    { height := Snapshot.height_snapshot v
      le_width := fun r hr => length_le_width hr
      width := ?width
      length_eq := v.snapshot.length_eq
      data := ?data
      computed := ?computed
      behind := ?behind
      listed := ?listed
      counted := ?counted
      apart := ?apart }
  -- The widest row decides, if there is one.
  case width =>
    rcases Snapshot.widest_cases (v.dataRows.map fun r => r.cells.map Cell.number?) with
      hzero | ⟨values, hvalues, hlength⟩
    · exact Or.inl hzero
    · rcases List.mem_map.1 hvalues with ⟨r, hr, rfl⟩
      rw [List.length_map] at hlength
      exact Or.inr ⟨r, hr, hlength⟩
  case data =>
    intro col row c hcell hdata
    rw [entry?_of_cellAt? hcell, Cell.number?, hdata]
    rfl
  case computed =>
    intro col row c hcell hcomputed
    rw [entry?_of_cellAt? hcell, Cell.number?, if_pos hcomputed]
  -- Behind the end of a row there is no cell, and the padding is empty.
  case behind =>
    intro col row r hr hlength hcol
    rw [entry?_snapshot hr hcol, List.getElem?_eq_none hlength]
    rfl
  -- A key is the text of the place of a formula, and the place is told from the text.
  case listed =>
    intro key text
    rw [getElem?_formulas_iff h, mem_formulas_iff]
    constructor
    · rintro ⟨col, row, c, hcell, htext, rfl⟩
      have hplace := (Address.ofIndices_eq_iff (h.lt hcell).1 (h.lt hcell).2).1 rfl
      exact ⟨_, c, rfl, by rw [← hplace.1, ← hplace.2, hcell], htext⟩
    · rintro ⟨a, c, rfl, hcell, htext⟩
      exact ⟨a.col, a.row, c, hcell, htext, by rw [Address.ofIndices_self]⟩
  case counted =>
    rw [← length_formulas]
    exact Std.HashMap.size_ofList (pairwise_formulas h)
  -- A cell that computes is extracted without its number, whatever text it shows.
  case apart =>
    intro a
    cases hformula : v.snapshot.formula? a with
    | none => exact Or.inr rfl
    | some text =>
        rcases (formula?_snapshot_iff h).1 hformula with ⟨c, hcell, htext⟩
        rw [value?_snapshot, hcell, Option.bind_some, Cell.number?, htext]
        exact Or.inl rfl

-- Two data rows of different widths with a total row between them, and the same with another total
-- row and without the text of the computed cell.
theorem snapshot_captures_ragged :
    let short : Row := ⟨false, [⟨none, "$5"⟩]⟩
    let long : Row := ⟨false, [⟨none, "n/a"⟩, ⟨some "=A1", "9"⟩]⟩
    let v : View := ⟨[short, ⟨true, [⟨some "=A1", "7"⟩]⟩, long]⟩
    let w : View := ⟨[short, ⟨false, [⟨none, "n/a"⟩, ⟨some "=A1", ""⟩]⟩, ⟨true, []⟩]⟩
    v.snapshot.height = 2 ∧ v.snapshot.entry? 0 0 = some (readNumber "$5") ∧
      v.snapshot.entry? 1 0 = some none ∧ v.snapshot.entry? 1 1 = some none ∧
      v.snapshot.formulas["B2"]? = some "=A1" ∧ v.snapshot.formulas.size = 1 ∧
      w.snapshot = v.snapshot := by
  intro short long v w
  have hfits : v.Fits := ⟨by decide, by decide⟩
  have halike : v.Alike w :=
    .cons (.cons ⟨rfl, fun _ => rfl⟩ .nil)
      (.cons (.cons ⟨rfl, fun _ => rfl⟩ (.cons ⟨rfl, fun h => nomatch h⟩ .nil)) .nil)
  rcases snapshot_captures v hfits with ⟨hcaptures, hsame⟩
  have hwidth : 2 ≤ v.snapshot.width := hcaptures.le_width _ (.tail _ (.head _))
  refine ⟨hcaptures.height, hcaptures.data 0 0 _ rfl rfl,
    hcaptures.behind 1 0 short rfl (Nat.le_refl _) hwidth, hcaptures.computed 1 1 _ rfl rfl,
    (hcaptures.listed _ _).2 ⟨⟨1, 1, by decide, by decide⟩, _, by decide +kernel, rfl, rfl⟩,
    hcaptures.counted, hsame w halike⟩

end View

end Worksheet
