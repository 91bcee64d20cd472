import Worksheet.Proofs.Machine.Range
import Worksheet.Proofs.Range.Parsing

/-!
# The cells of a rectangle

Any two opposite corners of a rectangle give the same range, and so does its written form. A walk
over it visits its cells row by row and from left to right, each once and no others, says at each
point how many are left, and stays at its end. All of this is computed with words that are large
enough, as long as the range is not the whole grid, whose cells a word of 64 bits cannot count.

## Main definitions

* `Machine.Fits`: What is computed with words for a range is what is computed without.

## Theorems

* `Machine.fits_of_not_isWholeGrid`: Words are large enough for every range but the whole grid.
* `Range.enumerates`: A range enumerates exactly its rectangle.
-/

namespace Worksheet

namespace Machine

/-- No computation with words for a range leaves the bounds, and each has the result that it has
    without bounds. -/
structure Fits (r : Range) : Prop where
  /-- The range is spanned. -/
  spanning : ∀ a b : Address, Range.spanning a b = r →
    Corners.spanning (Position.ofAddress a) (Position.ofAddress b) = Corners.ofRange r
  /-- It is written. -/
  chars : (Corners.ofRange r).chars? = some r.text.toList
  /-- It is read. -/
  read : Corners.read? r.text.toList = some (.ok (Corners.ofRange r))
  /-- Its rows are counted. -/
  rows : (Corners.ofRange r).rows? = some (BitVec.ofNat 64 r.height)
  /-- Its columns are counted. -/
  cols : (Corners.ofRange r).cols? = some (BitVec.ofNat 64 r.width)
  /-- Its cells are counted, and a word can hold their number. -/
  size : (Corners.ofRange r).size? = some (BitVec.ofNat 64 r.size) ∧ r.size < 2 ^ 64
  /-- A walk over it is called any number of times. -/
  walk : ∀ n, ∃ start w, (Corners.ofRange r).walk? = some start ∧ start.after? n = some w ∧
    w.remaining? = some (BitVec.ofNat 64 (r.size - n)) ∧
    (w.call?.map fun call => call.1) = some (r.cells[n]?.map Position.ofAddress)

theorem fits_of_not_isWholeGrid {r : Range} (h : ¬ r.IsWholeGrid) : Fits r where
  spanning a b hr := hr ▸ Corners.spanning_ofAddress a b
  chars := Corners.chars?_ofRange r
  read := by
    have hparse := r.parse_text
    rw [Corners.read?_eq]
    rw [Range.parse] at hparse
    rw [hparse]
    rfl
  rows := Corners.rows?_ofRange r
  cols := Corners.cols?_ofRange r
  size := ⟨Corners.size?_ofRange h, r.size_lt_iff.2 h⟩
  walk n := by
    have hcall := Walk.call?_ofWalk h (Nat.min_le_right n r.size)
    rw [← Range.Walk.after_walk, Range.Walk.answer_after] at hcall
    refine ⟨_, _, Walk.walk?_ofRange h, Walk.after?_walk h n, Walk.remaining?_after h n, ?_⟩
    rw [hcall, Option.map_some]

end Machine

namespace Range

/-- A range enumerates exactly its rectangle. Every choice of two opposite corners spans it, and its
    written form names it. Each of its cells comes once and no other cell comes, in the order in
    which a text is read. After each call a walk says how many cells are left, and at the end it
    answers for ever that there is none. -/
theorem enumerates (a b : Address) (h : ¬ (spanning a b).IsWholeGrid) :
    let r := spanning a b
    (∀ c d : Address, ((c.col = a.col ∧ d.col = b.col) ∨ (c.col = b.col ∧ d.col = a.col)) →
      ((c.row = a.row ∧ d.row = b.row) ∨ (c.row = b.row ∧ d.row = a.row)) → spanning c d = r) ∧
    (r.first.col ≤ r.last.col ∧ r.first.row ≤ r.last.row) ∧
    parse r.text = .ok r ∧
    (∀ c, r.cells.count c = if r.contains c then 1 else 0) ∧
    r.cells.Pairwise Address.Before ∧
    r.cells.length = r.size ∧
    (∀ n, (r.walk.after n).call.1 = r.cells[n]?) ∧
    (∀ n ≤ r.size, (r.walk.after n).remaining = r.size - n) ∧
    (∀ n, r.size ≤ n → (r.walk.after n).call.1 = none) ∧
    Machine.Fits r := by
  intro r
  refine ⟨fun c d hcol hrow => spanning_eq_iff.2 ⟨hcol, hrow⟩, ⟨r.col_le, r.row_le⟩, r.parse_text,
    r.count_cells, r.pairwise_cells, r.length_cells, fun n => Walk.answer_after r n,
    fun n _ => Walk.remaining_after r n, fun n hn => ?_, Machine.fits_of_not_isWholeGrid h⟩
  rw [Walk.answer_after, List.getElem?_eq_none (by rw [length_cells]; exact hn)]

/-- The cells of `B2:A1`, and how the walk over them ends. -/
theorem enumerates_back_to_front :
    let r := spanning ⟨1, 1, by decide, by decide⟩ ⟨0, 0, by decide, by decide⟩
    ¬ r.IsWholeGrid ∧ r.cells.length = 4 ∧
      (r.walk.after 1).call.1 = some ⟨1, 0, by decide, by decide⟩ ∧
      (r.walk.after 2).call.1 = some ⟨0, 1, by decide, by decide⟩ ∧
      (r.walk.after 4).remaining = 0 ∧ (r.walk.after 7).call.1 = none := by
  intro r
  have hgrid : ¬ r.IsWholeGrid := by decide
  rcases enumerates _ _ hgrid with ⟨-, -, -, -, -, hlength, hanswer, hleft, hend, -⟩
  exact ⟨hgrid, hlength, hanswer 1, hanswer 2, hleft 4 (by decide), hend 7 (by decide)⟩

end Range

end Worksheet
