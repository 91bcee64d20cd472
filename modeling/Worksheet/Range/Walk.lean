import Worksheet.Range.Basic

/-!
# Walking over a range

A walk visits the cells of a range one at a time, along the rows. It remembers only how many cells
it has passed, so a walk over a range of billions of cells costs no more than the steps taken.

## Main definitions

* `Range.Walk`: A range and the number of cells already visited.
* `Range.walk`: The walk before its first step.
* `Range.Walk.next?`: The next cell and the walk after it, or nothing at the end.
* `Range.Walk.remaining`: How many cells are left.
* `Range.Walk.take`: The next few cells and the walk after them.

## Theorems

* `Range.Walk.remaining_of_next?`: Each step leaves one cell fewer.
* `Range.Walk.next?_eq_none_iff`: A walk ends exactly when no cell is left.
-/

namespace Worksheet

namespace Range

/-- A range and the number of its cells already visited. -/
structure Walk where
  /-- The range walked over. -/
  range : Range
  /-- How many cells have been visited. -/
  visited : Nat

/-- The walk over a range before its first step. -/
def walk (r : Range) : Walk := ⟨r, 0⟩

namespace Walk

/-- How many cells are still to be visited. -/
def remaining (w : Walk) : Nat := w.range.size - w.visited

/-- The next cell and the walk after it, or nothing at the end. -/
def next? (w : Walk) : Option (Address × Walk) :=
  if h : w.visited < w.range.size then
    some (w.range.cellAt w.visited h, ⟨w.range, w.visited + 1⟩)
  else
    none

/-- The next cells, at most `n` of them, and the walk after them. -/
def take : Nat → Walk → List Address × Walk
  | 0, w => ([], w)
  | n + 1, w =>
    match w.next? with
    | none => ([], w)
    | some (a, w') =>
      let (later, rest) := take n w'
      (a :: later, rest)

theorem next?_eq_none_iff (w : Walk) : w.next? = none ↔ w.remaining = 0 := by
  rw [next?, remaining]
  split
  · rename_i h
    constructor
    · intro hn
      cases hn
    · intro hz
      omega
  · rename_i h
    exact ⟨fun _ => by omega, fun _ => rfl⟩

theorem remaining_of_next? {w w' : Walk} {a : Address} (h : w.next? = some (a, w')) :
    w.remaining = w'.remaining + 1 := by
  rw [next?] at h
  split at h
  · cases h
    simp only [remaining]
    omega
  · cases h

end Walk

end Range

end Worksheet
