import Mathlib.Data.List.Sort
import Worksheet.Range.Basic

/-!
# The order of the cells of a range

The cells of a range come row by row and from left to right, each once. Two lists of cells in that
order are equal as soon as they have the same members, so a fact about the cells of a range is
settled by saying which cells are meant.

## Main definitions

* `Address.Before`: The order in which a text is read: by rows, then by columns.

## Theorems

* `Address.eq_of_pairwise_before`: Ordered lists with the same members are equal.
* `Range.pairwise_cells`: The cells of a range come in order.
* `Range.mem_cells_iff`: The cells of a range are those it contains.
-/

namespace Worksheet

namespace Address

/-- Whether a cell comes before another one, reading row by row. -/
def Before (a b : Address) : Prop := a.row < b.row ∨ a.row = b.row ∧ a.col < b.col

instance : Std.Irrefl Before where
  irrefl a h := by
    unfold Before at h
    omega

instance : Std.Antisymm Before where
  antisymm a b hab hba := by
    unfold Before at hab hba
    omega

theorem eq_of_pairwise_before {as bs : List Address} (has : as.Pairwise Before)
    (hbs : bs.Pairwise Before) (h : ∀ a, a ∈ as ↔ a ∈ bs) : as = bs :=
  has.eq_of_mem_iff hbs h

end Address

namespace Range

theorem pairwise_cells (r : Range) : r.cells.Pairwise Address.Before := by
  unfold cells
  rw [List.pairwise_ofFn]
  intro i j hij
  have hlt : i.val < j.val := hij
  -- Cells are numbered along the rows, so the order is that of their numbers.
  have hwidth : 0 < r.width := Nat.succ_pos _
  have hrows : i.val / r.width ≤ j.val / r.width := Nat.div_le_div_right (Nat.le_of_lt hlt)
  have hi := Nat.div_add_mod i.val r.width
  have hj := Nat.div_add_mod j.val r.width
  simp only [Address.Before, cellAt]
  by_cases hrow : i.val / r.width = j.val / r.width
  · -- In one row the offset grows with the column.
    right
    rw [hrow] at hi
    exact ⟨by rw [hrow], by omega⟩
  · left
    omega

theorem mem_cells_iff (r : Range) (a : Address) : a ∈ r.cells ↔ r.contains a = true := by
  unfold cells
  rw [List.mem_ofFn, contains_iff]
  constructor
  · rintro ⟨i, rfl⟩
    have hcol : i.val % r.width < r.width := Nat.mod_lt _ (Nat.succ_pos _)
    have hrow := row_offset_lt i.isLt
    have := r.col_le
    have := r.row_le
    simp only [cellAt]
    generalize i.val / r.width = down at hrow ⊢
    generalize i.val % r.width = right at hcol ⊢
    unfold width at hcol
    unfold height at hrow
    omega
  · rintro ⟨⟨hleft, hright⟩, hupper, hlower⟩
    -- The offset of the cell: the rows above it, and the cells left of it.
    have hwidth : 0 < r.width := Nat.succ_pos _
    have hcol : a.col - r.first.col < r.width := by
      unfold width
      omega
    have hrow : a.row - r.first.row < r.height := by
      unfold height
      omega
    have hoffset : (a.row - r.first.row) * r.width + (a.col - r.first.col) < r.size := by
      have hnext : (a.row - r.first.row + 1) * r.width ≤ r.height * r.width :=
        Nat.mul_le_mul_right _ hrow
      unfold size
      rw [Nat.add_mul, Nat.one_mul] at hnext
      omega
    have hmod : ((a.row - r.first.row) * r.width + (a.col - r.first.col)) % r.width
        = a.col - r.first.col := by
      rw [Nat.mul_comm, Nat.mul_add_mod, Nat.mod_eq_of_lt hcol]
    have hdiv : ((a.row - r.first.row) * r.width + (a.col - r.first.col)) / r.width
        = a.row - r.first.row := by
      rw [Nat.mul_comm, Nat.mul_add_div hwidth, Nat.div_eq_of_lt hcol, Nat.add_zero]
    refine ⟨⟨_, hoffset⟩, ?_⟩
    ext
    · simp only [cellAt]
      rw [hmod]
      omega
    · simp only [cellAt]
      rw [hdiv]
      omega

end Range

end Worksheet
