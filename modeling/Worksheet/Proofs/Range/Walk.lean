import Worksheet.Proofs.Range.Order
import Worksheet.Range.Walk

/-!
# Calls of a walk

A walk is driven by calls: each answers with the next cell and moves on, and at the end it answers
that there is none and stays where it is. What a call answers is the cell at the number of calls
before it, so the answers are the cells of the range in order, and after them none for ever.

## Main definitions

* `Range.Walk.call`: One call.
* `Range.Walk.after`: The walk after a number of calls.

## Theorems

* `Range.length_cells`, `Range.count_cells`: How many cells there are, and how often each comes.
* `Range.Walk.call_of_lt`, `Range.Walk.call_of_le`: What one call answers and does.
* `Range.Walk.after_walk`: Where a walk is after a number of calls.
* `Range.Walk.answer_after`, `Range.Walk.remaining_after`: What it answers then, and what is left.
-/

namespace Worksheet

namespace Range

@[simp] theorem length_cells (r : Range) : r.cells.length = r.size := List.length_ofFn

theorem getElem?_cells {r : Range} {offset : ℕ} (h : offset < r.size) :
    r.cells[offset]? = some (r.cellAt offset h) := by
  rw [cells, List.getElem?_ofFn, dif_pos h]

/-- Every cell of the range comes once, and no other cell comes. -/
theorem count_cells (r : Range) (a : Address) :
    r.cells.count a = if r.contains a then 1 else 0 := by
  have honce : r.cells.Nodup := r.pairwise_cells.nodup
  by_cases hin : r.contains a = true
  · rw [if_pos hin, List.count_eq_one_of_mem honce ((r.mem_cells_iff a).2 hin)]
  · rw [if_neg hin, List.count_eq_zero]
    exact fun hmem => hin ((r.mem_cells_iff a).1 hmem)

namespace Walk

/-- One call: the next cell, if there is one, and the walk after it. At the end a walk stays where
    it is. -/
def call (w : Walk) : Option Address × Walk :=
  match w.next? with
  | none => (none, w)
  | some (a, later) => (some a, later)

/-- The walk after a number of calls. -/
def after (w : Walk) : ℕ → Walk
  | 0 => w
  | n + 1 => (w.after n).call.2

variable {r : Range} {n : ℕ}

theorem call_of_lt (h : n < r.size) : call ⟨r, n⟩ = (r.cells[n]?, ⟨r, n + 1⟩) := by
  rw [call, next?, dif_pos h, getElem?_cells h]

theorem call_of_le (h : r.size ≤ n) : call ⟨r, n⟩ = (none, ⟨r, n⟩) := by
  rw [call, next?, dif_neg (Nat.not_lt.2 h)]

/-- A walk moves on with each call until it has passed all cells. -/
theorem after_walk (r : Range) (n : ℕ) : r.walk.after n = ⟨r, min n r.size⟩ := by
  induction n with
  | zero => rw [after, walk, Nat.zero_min]
  | succ n ih =>
      rw [after, ih]
      by_cases h : n < r.size
      · rw [Nat.min_eq_left (Nat.le_of_lt h), Nat.min_eq_left h, call_of_lt h]
      · rw [Nat.min_eq_right (Nat.not_lt.1 h), Nat.min_eq_right (by omega),
          call_of_le (Nat.le_refl _)]

/-- After any number of steps, the next answer is the cell with that number, or none behind the
    last. -/
theorem answer_after (r : Range) (n : ℕ) : (r.walk.after n).call.1 = r.cells[n]? := by
  rw [after_walk]
  by_cases h : n < r.size
  · rw [Nat.min_eq_left (Nat.le_of_lt h), call_of_lt h]
  · rw [Nat.min_eq_right (Nat.not_lt.1 h), call_of_le (Nat.le_refl _),
      List.getElem?_eq_none (by rw [length_cells]; omega)]

/-- After any number of steps, what is left is the size less the steps, and never below zero. -/
theorem remaining_after (r : Range) (n : ℕ) : (r.walk.after n).remaining = r.size - n := by
  rw [after_walk]
  change r.size - min n r.size = r.size - n
  omega

end Walk

end Range

end Worksheet
