import Mathlib.Order.MinMax
import Worksheet.Proofs.Evaluation.Simulation
import Worksheet.Proofs.Reference.Tokens
import Worksheet.Proofs.Snapshot.Extraction

/-!
# Blank rows and columns

Putting blank rows or columns into a snapshot moves the cells behind them, and the references in all
formulas follow. Every cell then holds what it held at its old place, but for its references, and
the new cells are empty. A range whose corners have moved covers its old cells and perhaps some
of the new ones, so its occupied cells are the old ones in their old order.

## Main definitions

* `Gap`: Blank rows or columns in front of a given one.
* `Gap.shift`: How references move.
* `Gap.after`: Where an index lands.
* `Snapshot.withGap`: A snapshot with blank rows or columns put in.

## Theorems

* `Gap.move_eq_some_iff`: Addresses move index by index.
* `Snapshot.contains_withGap`, `Snapshot.value?_withGap`, `Snapshot.formula?_withGap`: What a moved
  cell holds.
* `Snapshot.forall₂_occupied_withGap`: The occupied cells of a moved range.
-/

namespace Worksheet

/-- Whether rows or columns are put in. -/
inductive Axis where
  | rows
  | columns
  deriving DecidableEq, Repr

/-- So many blank rows or columns in front of the one with a given index. -/
structure Gap where
  /-- Rows or columns. -/
  axis : Axis
  /-- The index of the first blank one. -/
  index : Nat
  /-- How many there are. -/
  count : Nat
  deriving DecidableEq, Repr

namespace Gap

/-- How references move: those at or behind the gap by as much as it is wide. -/
def shift (g : Gap) : Shift :=
  match g.axis with
  | .rows => ⟨0, g.count, -1, g.index - 1⟩
  | .columns => ⟨g.count, 0, g.index - 1, -1⟩

/-- Where an index on an axis lands. -/
def after (g : Gap) (axis : Axis) (i : Nat) : Nat :=
  if g.axis = axis ∧ g.index ≤ i then i + g.count else i

/-- A list with blank elements put in. -/
def spread {α : Type} (g : Gap) (blank : α) (l : List α) : List α :=
  l.take g.index ++ List.replicate g.count blank ++ l.drop g.index

/-- A formula and the written form of the address of its cell, both moved. -/
def entry? (g : Gap) (entry : String × String) : Option (String × String) := do
  let a ← Address.parse? entry.1
  let b ← g.shift.move a
  return (b.text, g.shift.shiftText entry.2)

/-- An index on an axis is that of a blank row or column. -/
def CoversIndex (g : Gap) (axis : Axis) (j : Nat) : Prop :=
  g.axis = axis ∧ g.index ≤ j ∧ j < g.index + g.count

/-- A cell lies in a blank row or column. -/
def Covers (g : Gap) (b : Address) : Prop :=
  g.CoversIndex .columns b.col ∨ g.CoversIndex .rows b.row

section Lists

variable {α : Type} {g : Gap} {blank : α} {l : List α}

-- Elements in front of the gap keep their index, and the others are found behind it.
theorem length_spread : (g.spread blank l).length = l.length + g.count := by
  unfold spread
  simp only [List.length_append, List.length_take, List.length_replicate, List.length_drop]
  omega

/-- A list that is spread has its old entries at their new places. -/
theorem getElem?_spread (h : g.index ≤ l.length) (i : Nat) :
    (g.spread blank l)[g.after g.axis i]? = l[i]? := by
  have hlength : (l.take g.index).length = g.index := by
    rw [List.length_take, Nat.min_eq_left h]
  unfold spread after
  -- The list is what is in front of the gap, the gap, and what is behind it, where places are
  -- later.
  rw [List.append_assoc]
  by_cases hi : g.index ≤ i
  · rw [if_pos ⟨rfl, hi⟩, List.getElem?_append_right (by omega), hlength,
      List.getElem?_append_right (by rw [List.length_replicate]; omega), List.length_replicate,
      List.getElem?_drop]
    congr 1
    omega
  · rw [if_neg fun hboth => hi hboth.2, List.getElem?_append_left (by omega),
      List.getElem?_take_of_lt (Nat.lt_of_not_le hi)]

/-- A list that is spread has the blank everywhere in the gap. -/
theorem getElem?_spread_of_gap (h : g.index ≤ l.length) {i : Nat} (hi : g.index ≤ i)
    (hi' : i < g.index + g.count) : (g.spread blank l)[i]? = some blank := by
  have hlength : (l.take g.index).length = g.index := by
    rw [List.length_take, Nat.min_eq_left h]
  unfold spread
  rw [List.append_assoc, List.getElem?_append_right (by omega), hlength,
    List.getElem?_append_left (by rw [List.length_replicate]; omega),
    List.getElem?_replicate_of_lt (by omega)]

end Lists

section Moves

variable {g : Gap} {axis : Axis} {i j : Nat} {a b a' b' : Address} {r t : Range}

/-- Places keep their order. -/
theorem after_le_after_iff : g.after axis i ≤ g.after axis j ↔ i ≤ j := by
  unfold after
  by_cases haxis : g.axis = axis
  · simp only [haxis, true_and]
    split <;> split <;> omega
  · simp only [haxis, false_and, if_false]

/-- No two places become one. -/
theorem after_inj (h : g.after axis i = g.after axis j) : i = j :=
  Nat.le_antisymm (after_le_after_iff.1 (Nat.le_of_eq h))
    (after_le_after_iff.1 (Nat.le_of_eq h.symm))

theorem after_lt_after_iff : g.after axis i < g.after axis j ↔ i < j := by
  rw [← Nat.not_le, ← Nat.not_le, after_le_after_iff]

-- The shift compares with the index before the gap, as it moves what lies strictly behind.
theorem moveIndex_cols : Shift.moveIndex g.shift.cols g.shift.afterCol i = g.after .columns i := by
  rcases g with ⟨axis, index, count⟩
  unfold Shift.moveIndex shift after
  cases axis with
  | rows => simp only [reduceCtorEq, false_and, if_false, Int.add_zero, ite_self]
  | columns =>
      simp only [true_and]
      split <;> split <;> omega

/-- On rows, the shift of references moves an index as the gap does. -/
theorem moveIndex_rows : Shift.moveIndex g.shift.rows g.shift.afterRow i = g.after .rows i := by
  rcases g with ⟨axis, index, count⟩
  unfold Shift.moveIndex shift after
  cases axis with
  | rows =>
      simp only [true_and]
      split <;> split <;> omega
  | columns => simp only [reduceCtorEq, false_and, if_false, Int.add_zero, ite_self]

/-- Addresses move index by index. -/
theorem move_eq_some_iff : g.shift.move a = some b ↔
    b.col = g.after .columns a.col ∧ b.row = g.after .rows a.row := by
  rw [Shift.move, moveIndex_cols, moveIndex_rows, Address.ofInts?_eq_some_iff, Int.ofNat_inj,
    Int.ofNat_inj]

/-- The shift of references is injective where it lands. -/
theorem move_injective (h : g.shift.move a = some b) (h' : g.shift.move a' = some b) : a = a' := by
  rw [move_eq_some_iff] at h h'
  ext
  · exact after_inj (h.1.symm.trans h'.1)
  · exact after_inj (h.2.symm.trans h'.2)

/-- The shift of references keeps the order in which cells are walked. -/
theorem before_of_move (h : g.shift.move a = some b) (h' : g.shift.move a' = some b')
    (hbefore : a.Before a') : b.Before b' := by
  rw [move_eq_some_iff] at h h'
  unfold Address.Before at hbefore ⊢
  rw [h.1, h.2, h'.1, h'.2, after_lt_after_iff, after_lt_after_iff]
  rcases hbefore with hrow | ⟨hrow, hcol⟩
  · exact Or.inl hrow
  · exact Or.inr ⟨by rw [hrow], hcol⟩

/-- A moved cell lies in a moved range if it lay in the range. -/
theorem contains_of_movesRange (hrange : g.shift.MovesRange r t) (h : g.shift.move a = some b) :
    t.contains b = r.contains a := by
  rcases hrange with ⟨p, q, p', q', hp, hq, rfl, rfl⟩
  rw [move_eq_some_iff] at h hp hq
  rw [Bool.eq_iff_iff, Range.contains_iff, Range.contains_iff]
  -- Moving indices keeps their order, so a cell stays between the corners or stays out.
  simp only [Range.spanning, min_le_iff, le_max_iff, h.1, h.2, hp.1, hp.2, hq.1, hq.2,
    after_le_after_iff]

/-- Every place outside the gap is the new place of an old one. -/
theorem exists_after_eq (h : ¬ g.CoversIndex axis j) : ∃ i, i ≤ j ∧ g.after axis i = j := by
  unfold CoversIndex at h
  unfold after
  by_cases haxis : g.axis = axis
  · simp only [haxis, true_and] at h ⊢
    by_cases hj : g.index ≤ j
    -- An index behind the gap is where the one so many places in front of it lands.
    · exact ⟨j - g.count, by omega, by rw [if_pos (by omega)]; omega⟩
    · exact ⟨j, Nat.le_refl j, if_neg hj⟩
  · exact ⟨j, Nat.le_refl j, if_neg fun hboth => haxis hboth.1⟩

/-- A cell outside the gap comes from somewhere. -/
theorem exists_move_of_not_covers (h : ¬ g.Covers b) : ∃ a, g.shift.move a = some b := by
  unfold Covers at h
  rw [not_or] at h
  rcases exists_after_eq h.1 with ⟨col, hcol, hcolumns⟩
  rcases exists_after_eq h.2 with ⟨row, hrow, hrows⟩
  have := b.col_lt
  have := b.row_lt
  exact ⟨⟨col, row, by omega, by omega⟩, move_eq_some_iff.2 ⟨hcolumns.symm, hrows.symm⟩⟩

end Moves

end Gap

namespace Snapshot

/-- How many rows or columns there are. -/
def extent (s : Snapshot) : Axis → Nat
  | .rows => s.height
  | .columns => s.width

/-- The snapshot with blank rows or columns put in and all references moved. -/
def withGap (s : Snapshot) (g : Gap) : Snapshot where
  rows :=
    match g.axis with
    | .rows => g.spread (List.replicate s.width none) s.rows
    | .columns => s.rows.map (g.spread none)
  width :=
    match g.axis with
    | .rows => s.width
    | .columns => s.width + g.count
  formulas := .ofList (s.formulas.toList.filterMap g.entry?)
  length_eq := by
    intro row hrow
    rcases g with ⟨axis, index, count⟩
    cases axis with
    | rows =>
        unfold Gap.spread at hrow
        rcases List.mem_append.1 hrow with hrow | hrow
        · rcases List.mem_append.1 hrow with hrow | hrow
          · exact s.length_eq row (List.mem_of_mem_take hrow)
          · rw [List.eq_of_mem_replicate hrow, List.length_replicate]
        · exact s.length_eq row (List.mem_of_mem_drop hrow)
    | columns =>
        rcases List.mem_map.1 hrow with ⟨row, hold, rfl⟩
        rw [Gap.length_spread, s.length_eq row hold]

variable {s : Snapshot} {g : Gap} {a b : Address} {r t : Range} {text : String}

theorem contains_iff_extent :
    s.contains a = true ↔ a.row < s.extent .rows ∧ a.col < s.extent .columns :=
  contains_iff s a

/-- A gap makes its own axis longer and leaves the other as it was. -/
theorem extent_withGap (axis : Axis) :
    (s.withGap g).extent axis =
      if g.axis = axis then s.extent axis + g.count else s.extent axis := by
  rcases g with ⟨axis', index, count⟩
  cases axis' with
  | rows =>
      cases axis with
      | rows => exact Gap.length_spread
      | columns => rfl
  | columns =>
      cases axis with
      | rows => exact List.length_map _
      | columns => rfl

-- A gap makes the snapshot as much longer as it moves the cells behind it.
theorem after_lt_extent_withGap_iff (h : g.index ≤ s.extent g.axis) {axis : Axis} {i : Nat} :
    g.after axis i < (s.withGap g).extent axis ↔ i < s.extent axis := by
  rw [extent_withGap]
  unfold Gap.after
  by_cases haxis : g.axis = axis
  · rw [haxis] at h
    simp only [haxis, true_and, if_true]
    split <;> omega
  · simp only [haxis, false_and, if_false]

/-- A moved cell is inside after the gap exactly when it was inside before. -/
theorem contains_withGap (h : g.index ≤ s.extent g.axis) (hmove : g.shift.move a = some b) :
    (s.withGap g).contains b = s.contains a := by
  rw [Gap.move_eq_some_iff] at hmove
  rw [Bool.eq_iff_iff, contains_iff_extent, contains_iff_extent, hmove.1, hmove.2,
    after_lt_extent_withGap_iff h, after_lt_extent_withGap_iff h]

/-- A moved cell has the number it had before. -/
theorem value?_withGap (h : g.index ≤ s.extent g.axis) (hmove : g.shift.move a = some b) :
    (s.withGap g).value? b = s.value? a := by
  rw [Gap.move_eq_some_iff] at hmove
  unfold value?
  rw [hmove.1, hmove.2]
  rcases g with ⟨axis, index, count⟩
  cases axis with
  | rows =>
      change ((Gap.spread _ _ s.rows)[_]?.bind fun row => _) = s.rows[a.row]?.bind fun row => _
      rw [Gap.getElem?_spread h]
      rfl
  | columns =>
      change ((s.rows.map _)[a.row]?.bind fun row => _) = s.rows[a.row]?.bind fun row => _
      rw [List.getElem?_map]
      cases hrow : s.rows[a.row]? with
      | none => rfl
      | some row =>
          -- Each row is as long as the snapshot is wide, so the gap starts in it or at its end.
          have hlength := s.length_eq row (List.mem_of_getElem? hrow)
          have hindex : index ≤ row.length := by
            rw [hlength]
            exact h
          simp only [Option.map_some, Option.bind_some]
          rw [Gap.getElem?_spread hindex]

/-- The blank cells have no numbers. -/
theorem value?_withGap_of_covers (h : g.index ≤ s.extent g.axis) (hcovers : g.Covers b) :
    (s.withGap g).value? b = none := by
  unfold value?
  rcases g with ⟨axis, index, count⟩
  cases axis with
  | rows =>
      -- The gap is made of whole rows.
      rcases hcovers with ⟨haxis, _⟩ | ⟨_, hle, hlt⟩
      · cases haxis
      · change ((Gap.spread _ _ s.rows)[_]?.bind fun row => _) = none
        rw [Gap.getElem?_spread_of_gap h hle hlt, Option.bind_some, List.getElem?_replicate]
        split <;> rfl
  | columns =>
      -- The gap goes through each row, all of which are as long as the snapshot is wide.
      rcases hcovers with ⟨_, hle, hlt⟩ | ⟨haxis, _⟩
      · change ((s.rows.map _)[_]?.bind fun row => _) = none
        rw [List.getElem?_map]
        cases hrow : s.rows[b.row]? with
        | none => rfl
        | some row =>
            have hlength := s.length_eq row (List.mem_of_getElem? hrow)
            have hindex : index ≤ row.length := by
              rw [hlength]
              exact h
            simp only [Option.map_some, Option.bind_some]
            rw [Gap.getElem?_spread_of_gap hindex hle hlt]
            rfl
      · cases haxis

/-- Formulas are stored under written forms of addresses only. -/
def IsKeyed (s : Snapshot) : Prop :=
  ∀ ref text, s.formulas[ref]? = some text → ∃ a : Address, a.text = ref

/-- The formulas behind a gap are the old ones, each at its moved key with its text shifted. -/
theorem mem_entries_iff (hkeyed : s.IsKeyed) {k x : String} :
    (k, x) ∈ s.formulas.toList.filterMap g.entry? ↔ ∃ a b old, s.formula? a = some old ∧
      g.shift.move a = some b ∧ b.text = k ∧ g.shift.shiftText old = x := by
  rw [List.mem_filterMap]
  constructor
  · rintro ⟨⟨ref, old⟩, hold, hentry⟩
    rw [Std.HashMap.mem_toList_iff_getElem?_eq_some] at hold
    -- An entry is kept if its key is an address that is not pushed out.
    rcases hkeyed ref old hold with ⟨a, rfl⟩
    rcases Option.bind_eq_some_iff.1 hentry with ⟨a', ha', hmoved⟩
    rcases Option.bind_eq_some_iff.1 hmoved with ⟨b, hb, hpair⟩
    rw [Address.parse?_text, Option.some.injEq] at ha'
    rw [← ha'] at hb
    cases hpair
    exact ⟨a, b, old, hold, hb, rfl, rfl⟩
  · rintro ⟨a, b, old, hold, hmove, rfl, rfl⟩
    refine ⟨(a.text, old), Std.HashMap.mem_toList_iff_getElem?_eq_some.2 hold, ?_⟩
    unfold Gap.entry?
    rw [Address.parse?_text, Option.bind_eq_bind, Option.bind_some, hmove]
    rfl

/-- A cell has the formula of its old place, with moved references. -/
theorem formula?_withGap (hkeyed : s.IsKeyed) :
    (s.withGap g).formula? b = some text ↔ ∃ a old,
      s.formula? a = some old ∧ g.shift.move a = some b ∧ g.shift.shiftText old = text := by
  change (Std.HashMap.ofList _)[b.text]? = some text ↔ _
  rw [getElem?_ofList_iff, mem_entries_iff hkeyed]
  · constructor
    · rintro ⟨a, b', old, hold, hmove, hkey, htext⟩
      rw [Address.text_injective hkey] at hmove
      exact ⟨a, old, hold, hmove, htext⟩
    · rintro ⟨a, old, hold, hmove, htext⟩
      exact ⟨a, b, old, hold, hmove, rfl, htext⟩
  · -- No two cells move to one place.
    intro k x y hx hy
    rcases (mem_entries_iff hkeyed).1 hx with ⟨a, b, old, hold, hmove, rfl, rfl⟩
    rcases (mem_entries_iff hkeyed).1 hy with ⟨a', b', old', hold', hmove', hkey, rfl⟩
    rw [Address.text_injective hkey] at hmove'
    rw [Gap.move_injective hmove' hmove, hold, Option.some.injEq] at hold'
    rw [hold']

/-- What an occupied cell was moved from. -/
-- A blank cell has no number, and a formula only if one was moved there.
theorem exists_move_of_isOccupied (h : g.index ≤ s.extent g.axis) (hkeyed : s.IsKeyed)
    (hoccupied : (s.withGap g).isOccupied b = true) : ∃ a, g.shift.move a = some b := by
  by_cases hcovers : g.Covers b
  · unfold isOccupied at hoccupied
    rw [value?_withGap_of_covers h hcovers, Bool.and_eq_true, Option.isSome_none,
      Bool.false_or, Option.isSome_iff_exists] at hoccupied
    rcases hoccupied.2 with ⟨text, htext⟩
    rcases (formula?_withGap hkeyed).1 htext with ⟨a, _, _, hmove, _⟩
    exact ⟨a, hmove⟩
  · exact Gap.exists_move_of_not_covers hcovers

/-- A moved cell has a formula exactly when it had one before. -/
theorem isSome_formula?_withGap (hkeyed : s.IsKeyed) (hmove : g.shift.move a = some b) :
    ((s.withGap g).formula? b).isSome = (s.formula? a).isSome := by
  rw [Bool.eq_iff_iff, Option.isSome_iff_exists, Option.isSome_iff_exists]
  constructor
  · rintro ⟨text, htext⟩
    rcases (formula?_withGap hkeyed).1 htext with ⟨a', old, hold, hmove', _⟩
    rw [Gap.move_injective hmove' hmove] at hold
    exact ⟨old, hold⟩
  · rintro ⟨old, hold⟩
    exact ⟨_, (formula?_withGap hkeyed).2 ⟨a, old, hold, hmove, rfl⟩⟩

/-- A moved cell is occupied exactly when it was before. -/
theorem isOccupied_withGap (h : g.index ≤ s.extent g.axis) (hkeyed : s.IsKeyed)
    (hmove : g.shift.move a = some b) : (s.withGap g).isOccupied b = s.isOccupied a := by
  unfold isOccupied
  rw [contains_withGap h hmove, value?_withGap h hmove, isSome_formula?_withGap hkeyed hmove]

/-- No cell of the snapshot is pushed out of the grid, if the gap leaves enough room. -/
theorem exists_move_of_contains (hlimit : s.extent g.axis + g.count ≤ Column.limit)
    (hcontains : s.contains a = true) : ∃ b, g.shift.move a = some b := by
  -- With room for the gap, every place inside has a place after it.
  have hlt : ∀ axis i, i < s.extent axis → i < Column.limit → g.after axis i < Column.limit := by
    intro axis i hi hi'
    unfold Gap.after
    split
    · rename_i haxis
      rw [haxis.1] at hlimit
      omega
    · exact hi'
  rw [contains_iff_extent] at hcontains
  exact ⟨⟨_, _, hlt .columns a.col hcontains.2 a.col_lt, hlt .rows a.row hcontains.1 a.row_lt⟩,
    Gap.move_eq_some_iff.2 ⟨rfl, rfl⟩⟩

/-- The occupied cells of a moved range are the old ones, moved and in their old order. -/
theorem forall₂_occupied_withGap (h : g.index ≤ s.extent g.axis)
    (hlimit : s.extent g.axis + g.count ≤ Column.limit) (hkeyed : s.IsKeyed)
    (hrange : g.shift.MovesRange r t) :
    List.Forall₂ g.shift.MovesCell (s.occupied r) ((s.withGap g).occupied t) := by
  have hmoves : ∀ a ∈ s.occupied r, g.shift.move a = some ((g.shift.move a).getD a) := by
    intro a ha
    have hoccupied := (List.mem_filter.1 ha).2
    unfold isOccupied at hoccupied
    rw [Bool.and_eq_true] at hoccupied
    rcases exists_move_of_contains hlimit hoccupied.1 with ⟨b, hb⟩
    rw [hb, Option.getD_some]
  -- Both lists are in reading order, so it is enough that they have the same cells.
  have hmap : (s.withGap g).occupied t =
      (s.occupied r).map fun a => (g.shift.move a).getD a := by
    refine Address.eq_of_pairwise_before (t.pairwise_cells.filter _) ?_ ?_
    · rw [List.pairwise_map]
      refine (r.pairwise_cells.filter _).imp_of_mem fun ha ha' hbefore => ?_
      exact Gap.before_of_move (hmoves _ ha) (hmoves _ ha') hbefore
    · intro b
      unfold occupied
      rw [List.mem_filter, List.mem_map, Range.mem_cells_iff]
      constructor
      · rintro ⟨hcontains, hoccupied⟩
        rcases exists_move_of_isOccupied h hkeyed hoccupied with ⟨a, hmove⟩
        rw [Gap.contains_of_movesRange hrange hmove] at hcontains
        rw [isOccupied_withGap h hkeyed hmove] at hoccupied
        refine ⟨a, List.mem_filter.2 ⟨(r.mem_cells_iff a).2 hcontains, hoccupied⟩, ?_⟩
        rw [hmove, Option.getD_some]
      · rintro ⟨a, ha, rfl⟩
        have hmove := hmoves a ha
        rw [Gap.contains_of_movesRange hrange hmove, isOccupied_withGap h hkeyed hmove,
          ← Range.mem_cells_iff]
        exact List.mem_filter.1 ha
  rw [hmap, List.forall₂_map_right_iff, List.forall₂_same]
  exact hmoves

end Snapshot

/-- The formulas of an extracted snapshot are all stored under the text of an address. -/
theorem View.isKeyed_snapshot (v : View) : v.snapshot.IsKeyed := by
  intro ref text h
  rcases View.mem_formulas_iff.1 (mem_of_getElem?_ofList h) with ⟨col, row, _, _, _, hkey⟩
  exact ⟨_, hkey.symm⟩

end Worksheet
