import Mathlib.Data.UInt
import Worksheet.Proofs.Range.Order
import Worksheet.Snapshot.Basic

/-!
# Walks over ranges

A function applied to a range reads the cells that a walk over the range visits. The walk ends at
the edges of the snapshot, because there is nothing behind them. Where these edges are is computed
with words of 32 bits, which do not hold the number of rows or columns of every snapshot, so a walk
may end before it comes to an edge. It never goes beyond one.

How far walks go is settled by the snapshot alone. There is one block of cells, from the first row
and the first column on, and a walk visits those cells of its range that lie in the block. A
snapshot that fits the grid is its own block, so there the walk visits exactly the cells of the
range inside the snapshot.

## Main definitions

* `reach`: How many indices along one side of a snapshot are in the block.
* `Snapshot.walked`: The cells in the block.
* `Snapshot.Fits`: A snapshot with no more rows and columns than the grid.

## Theorems

* `le_lastIndex_iff`: Up to which index a walk goes along one side.
* `Snapshot.cellsOf_eq_filter`: A walk visits the cells of its range that lie in the block.
* `Snapshot.contains_of_walked`: The block lies in the snapshot.
* `Snapshot.length_cellsOf_le`: A walk visits no more cells than the snapshot has.
* `Snapshot.Fits.walked_eq`: The block of a snapshot that fits the grid is all of it.
* `Snapshot.Fits.cellsOf_eq`: In such a snapshot a walk visits the cells inside.
-/

namespace Worksheet

theorem Address.ofIndices_self (a : Address) : ofIndices a.col a.row = a := by
  ext
  · exact Nat.mod_eq_of_lt a.col_lt
  · exact Nat.mod_eq_of_lt a.row_lt

/-- How many of so many indices a walk comes to, if its range is long enough. -/
def reach (count : Nat) : Nat := if count = 0 then 0 else (UInt32.ofNat count - 1).toNat + 1

section Indices

variable {first last count k : Nat}

-- The word before that of a number; the word before zero is the last one.
theorem toNat_pred (count : Nat) :
    (UInt32.ofNat count - 1).toNat = (2 ^ 32 - 1 + count % 2 ^ 32) % 2 ^ 32 := by
  rw [UInt32.toNat_sub, UInt32.toNat_ofNat']
  rfl

/-- A walk never leaves the snapshot, whatever is lost of the number of indices. -/
theorem reach_le (count : Nat) : reach count ≤ count := by
  unfold reach
  rw [toNat_pred]
  split <;> omega

/-- Nothing is lost of a number that the indices of the grid can count. The grid has as many indices
    as there are words, and its size is the one number where the word is zero and the word before
    it is right nevertheless. -/
theorem reach_of_le (h : count ≤ Column.limit) : reach count = count := by
  have hlimit : count ≤ 2 ^ 32 := h
  unfold reach
  rw [toNat_pred]
  split <;> omega

/-- A walk stops at the end of its range or at the last index it can come to. -/
theorem toNat_lastIndex_eq (hlast : last < Column.limit) (hpos : 0 < count) :
    (lastIndex last count).toNat = min last (reach count - 1) := by
  rw [lastIndex, UInt32.toNat_min, UInt32.toNat_ofNat', Nat.mod_eq_of_lt hlast, reach,
    if_neg (Nat.ne_of_gt hpos), Nat.add_sub_cancel]

/-- The words in a walk are the numbers they stand for, if the number of indices is a word. -/
theorem toNat_lastIndex (hlast : last < 2 ^ 32) (hpos : 0 < count) (hcount : count < 2 ^ 32) :
    (lastIndex last count).toNat = min last (count - 1) := by
  rw [toNat_lastIndex_eq hlast hpos, reach_of_le (Nat.le_of_lt hcount)]

/-- The indices up to the last one of a walk are those of the range that are within reach. -/
theorem le_lastIndex_iff (hlast : last < Column.limit) (hpos : 0 < count) :
    k ≤ (lastIndex last count).toNat ↔ k ≤ last ∧ k < reach count := by
  have hreach : 0 < reach count := by
    rw [reach, if_neg (Nat.ne_of_gt hpos)]
    exact Nat.succ_pos _
  rw [toNat_lastIndex_eq hlast hpos]
  omega

theorem mem_indices : k ∈ indices first last ↔ first ≤ k ∧ k ≤ last := by
  rw [indices, List.mem_range'_1]
  omega

theorem pairwise_indices : (indices first last).Pairwise (· < ·) := List.pairwise_lt_range' 1

end Indices

namespace Snapshot

/-- Whether a cell lies in the block that walks over ranges stay in. -/
def walked (s : Snapshot) (a : Address) : Bool := a.row < reach s.height && a.col < reach s.width

theorem contains_iff (s : Snapshot) (a : Address) :
    s.contains a = true ↔ a.row < s.height ∧ a.col < s.width := by
  simp only [contains, Bool.and_eq_true, decide_eq_true_eq]

theorem walked_iff (s : Snapshot) (a : Address) :
    s.walked a = true ↔ a.row < reach s.height ∧ a.col < reach s.width := by
  simp only [walked, Bool.and_eq_true, decide_eq_true_eq]

/-- A walk never leaves the snapshot. -/
theorem contains_of_walked {s : Snapshot} {a : Address} (h : s.walked a = true) :
    s.contains a = true := by
  rw [walked_iff] at h
  rw [contains_iff]
  exact ⟨Nat.lt_of_lt_of_le h.1 (reach_le _), Nat.lt_of_lt_of_le h.2 (reach_le _)⟩

/-! ## The cells visited -/

-- Indices of a walk are those of cells, so a position made of them is not reduced to the grid.
theorem mem_walk_iff {a : Address} {rows cols : List Nat} (hrows : ∀ k ∈ rows, k < Column.limit)
    (hcols : ∀ k ∈ cols, k < Column.limit) :
    a ∈ (rows.flatMap fun row => cols.map fun col => Address.ofIndices col row) ↔
      a.row ∈ rows ∧ a.col ∈ cols := by
  -- The indices of a walk fit their words, so a cell is told from them.
  rw [List.mem_flatMap]
  constructor
  · rintro ⟨row, hrow, ha⟩
    rcases List.mem_map.1 ha with ⟨col, hcol, rfl⟩
    simp only [Address.ofIndices, Nat.mod_eq_of_lt (hrows row hrow),
      Nat.mod_eq_of_lt (hcols col hcol)]
    exact ⟨hrow, hcol⟩
  · rintro ⟨hrow, hcol⟩
    exact ⟨a.row, hrow, List.mem_map.2 ⟨a.col, hcol, Address.ofIndices_self a⟩⟩

/-- Two loops over growing indices, one inside the other, give the cells in their order. -/
theorem pairwise_walk {rows cols : List Nat} (hrows : ∀ k ∈ rows, k < Column.limit)
    (hcols : ∀ k ∈ cols, k < Column.limit) (hrowsOrder : rows.Pairwise (· < ·))
    (hcolsOrder : cols.Pairwise (· < ·)) :
    (rows.flatMap fun row => cols.map fun col => Address.ofIndices col row).Pairwise
      Address.Before := by
  rw [List.pairwise_flatMap]
  constructor
  · -- Within a row the columns grow.
    intro row _
    rw [List.pairwise_map]
    refine hcolsOrder.imp_of_mem fun hcol hcol' hlt => Or.inr ⟨rfl, ?_⟩
    simp only [Address.ofIndices, Nat.mod_eq_of_lt (hcols _ hcol), Nat.mod_eq_of_lt (hcols _ hcol')]
    exact hlt
  · -- Whatever the columns, one row comes before another.
    refine hrowsOrder.imp_of_mem fun hrow hrow' hlt a ha b hb => Or.inl ?_
    rcases List.mem_map.1 ha with ⟨col, _, rfl⟩
    rcases List.mem_map.1 hb with ⟨col', _, rfl⟩
    simp only [Address.ofIndices, Nat.mod_eq_of_lt (hrows _ hrow), Nat.mod_eq_of_lt (hrows _ hrow')]
    exact hlt

theorem lt_limit_of_mem_indices {first k : Nat} {last : UInt32}
    (h : k ∈ indices first last.toNat) : k < Column.limit :=
  Nat.lt_of_le_of_lt (mem_indices.1 h).2 last.toNat_lt

variable (s : Snapshot) (r : Range)

/-- A walk goes from left to right and then from top to bottom, so it meets no cell twice. -/
theorem pairwise_cellsOf : (s.cellsOf r).Pairwise Address.Before := by
  unfold cellsOf
  by_cases hempty : s.height = 0 ∨ s.width = 0
  · rw [if_pos hempty]
    exact List.Pairwise.nil
  · rw [if_neg hempty]
    exact pairwise_walk (fun _ => lt_limit_of_mem_indices) (fun _ => lt_limit_of_mem_indices)
      pairwise_indices pairwise_indices

/-- A walk visits the cells of its range that lie in the block. -/
theorem mem_cellsOf_iff (a : Address) :
    a ∈ s.cellsOf r ↔ r.contains a = true ∧ s.walked a = true := by
  unfold cellsOf
  by_cases hempty : s.height = 0 ∨ s.width = 0
  · -- Without rows or columns the block is empty too.
    rw [if_pos hempty, walked_iff]
    have hrows := reach_le s.height
    have hcols := reach_le s.width
    refine ⟨fun hmem => absurd hmem List.not_mem_nil, fun h => ?_⟩
    omega
  · rw [if_neg hempty]
    dsimp only
    rw [mem_walk_iff (fun _ => lt_limit_of_mem_indices) (fun _ => lt_limit_of_mem_indices),
      mem_indices, mem_indices, le_lastIndex_iff r.last.row_lt (by omega),
      le_lastIndex_iff r.last.col_lt (by omega), Range.contains_iff, walked_iff]
    omega

/-- A walk visits the cells of the range that lie in the walked block, in the order of the range. -/
theorem cellsOf_eq_filter : s.cellsOf r = r.cells.filter s.walked := by
  refine Address.eq_of_pairwise_before (s.pairwise_cellsOf r) (r.pairwise_cells.filter _) ?_
  intro a
  rw [mem_cellsOf_iff, List.mem_filter, Range.mem_cells_iff]

/-- A walk visits no more cells than the snapshot has, however large its range is. -/
theorem length_cellsOf_le : (s.cellsOf r).length ≤ s.height * s.width := by
  have hside : ∀ {first last count : Nat}, last < Column.limit → 0 < count →
      (indices first (lastIndex last count).toNat).length ≤ count := by
    intro first last count hlast hpos
    have hreach := reach_le count
    rw [indices, List.length_range', toNat_lastIndex_eq hlast hpos]
    omega
  unfold cellsOf
  by_cases hempty : s.height = 0 ∨ s.width = 0
  · rw [if_pos hempty]
    exact Nat.zero_le _
  · -- As many cells in each row as there are columns, in as many rows.
    rw [if_neg hempty, List.length_flatMap]
    simp only [List.length_map, List.map_const', List.sum_replicate_nat]
    exact Nat.mul_le_mul (hside r.last.row_lt (by omega)) (hside r.last.col_lt (by omega))

/-! ## Snapshots that fit the grid -/

/-- A snapshot with no more rows and columns than the grid. -/
structure Fits : Prop where
  /-- No more rows. -/
  height_le : s.height ≤ Column.limit
  /-- No more columns. -/
  width_le : s.width ≤ Column.limit

variable {s}

theorem fits_of_lt (hheight : s.height < 2 ^ 32) (hwidth : s.width < 2 ^ 32) : s.Fits :=
  ⟨Nat.le_of_lt hheight, Nat.le_of_lt hwidth⟩

/-- Where a snapshot fits the grid, walks come to all of it. -/
theorem Fits.walked_eq (h : s.Fits) : s.walked = s.contains := by
  funext a
  rw [Bool.eq_iff_iff, walked_iff, contains_iff, reach_of_le h.height_le, reach_of_le h.width_le]

/-- In a snapshot that fits the grid, a walk visits the cells of its range inside the snapshot. -/
theorem Fits.cellsOf_eq (h : s.Fits) (r : Range) : s.cellsOf r = r.cells.filter s.contains := by
  rw [cellsOf_eq_filter, h.walked_eq]

/-- Where a snapshot fits the grid, a walk visits exactly the cells that the range and the snapshot
    share. -/
theorem Fits.mem_cellsOf_iff (h : s.Fits) {r : Range} {a : Address} :
    a ∈ s.cellsOf r ↔ r.contains a = true ∧ s.contains a = true := by
  rw [Snapshot.mem_cellsOf_iff, h.walked_eq]

end Snapshot

end Worksheet
