import Worksheet.Proofs.Machine.Address
import Worksheet.Proofs.Range.Walk

/-!
# Ranges in words

The corners of a range are positions of 32 bits, and its cells are counted and numbered in words of
64 bits. Only the whole grid has more cells than such a word can count. For every other range a walk
never leaves the bounds: the offset of a cell is below the number of cells, so the quotient and the
remainder by the width lead to a row and a column of the range, which fit words of 32 bits again.

## Main definitions

* `Machine.Corners`: The corners of a range as positions in words.
* `Machine.Corners.spanning`, `Machine.Corners.read?`, `Machine.Corners.chars?`: Ranges spanned,
  read and written with words.
* `Machine.Corners.size?`: The number of cells.
* `Machine.Walk`, `Machine.Walk.call?`, `Machine.Walk.after?`: A walk with words, and its calls.

## Theorems

* `Machine.Corners.spanning_ofAddress`, `Machine.Corners.read?_eq`,
  `Machine.Corners.chars?_ofRange`: What is computed with words is what is computed without.
* `Machine.Corners.size?_ofRange`: The same for the number of cells, unless it is the whole grid.
* `Machine.Walk.call?_ofWalk`: The same for one call of a walk.
* `Machine.Walk.after?_walk`: The same for any number of calls.
-/

namespace Worksheet

/-- The range starts and ends at the corners of the grid. -/
def Range.IsWholeGrid (r : Range) : Prop :=
  r.first.col = 0 ∧ r.first.row = 0 ∧ r.last.col = 2 ^ 32 - 1 ∧ r.last.row = 2 ^ 32 - 1

instance (r : Range) : Decidable r.IsWholeGrid := inferInstanceAs (Decidable (_ ∧ _))

namespace Machine

/-- The corners of a range as positions in words. -/
structure Corners where
  /-- The top left cell. -/
  first : Position
  /-- The bottom right cell. -/
  last : Position
  deriving DecidableEq

/-- The smaller one of two words. -/
def least {w : ℕ} (x y : BitVec w) : BitVec w := if x ≤ y then x else y

/-- The greater one of two words. -/
def greatest {w : ℕ} (x y : BitVec w) : BitVec w := if x ≤ y then y else x

/-- The least of two words is the word of the least number. -/
theorem least_ofNat {w m n : ℕ} (hm : m < 2 ^ w) (hn : n < 2 ^ w) :
    least (BitVec.ofNat w m) (BitVec.ofNat w n) = BitVec.ofNat w (min m n) := by
  simp only [least, le_ofNat hm hn, Nat.min_def, apply_ite (BitVec.ofNat w)]

theorem greatest_ofNat {w m n : ℕ} (hm : m < 2 ^ w) (hn : n < 2 ^ w) :
    greatest (BitVec.ofNat w m) (BitVec.ofNat w n) = BitVec.ofNat w (max m n) := by
  simp only [greatest, le_ofNat hm hn, Nat.max_def, apply_ite (BitVec.ofNat w)]

/-- The number of words from one to another one, both included. -/
def count? (first last : BitVec 32) : Option (BitVec 64) := do
  let apart ← sub? last first
  add? (apart.setWidth 64) 1#64

/-- Counting from a first to a last index does not overflow in the wider word. -/
theorem count?_ofNat {first last : ℕ} (h : first ≤ last) (hlast : last < 2 ^ 32) :
    count? (BitVec.ofNat 32 first) (BitVec.ofNat 32 last) =
      some (BitVec.ofNat 64 (last - first + 1)) := by
  rw [count?, sub?_ofNat hlast h]
  simp only [Option.bind_eq_bind, Option.bind_some,
    setWidth_ofNat (show last - first < 2 ^ 32 by omega)]
  exact add?_ofNat (by omega)

namespace Corners

/-- The corners of a range. -/
def ofRange (r : Range) : Corners := ⟨Position.ofAddress r.first, Position.ofAddress r.last⟩

/-- The corners of the rectangle spanned by two cells given in any order. -/
def spanning (a b : Position) : Corners :=
  ⟨⟨least a.col b.col, least a.row b.row⟩, ⟨greatest a.col b.col, greatest a.row b.row⟩⟩

/-- The range that characters name. -/
def read? (whole : List Char) : Option (Except Range.Error Corners) :=
  let name := String.ofList whole
  match whole.dropWhile (· ≠ ':') with
  | [] => some (.error (.separator name))
  | _ :: second =>
    if second.contains ':' then some (.error (.separator name))
    else do
      match ← Machine.read? (whole.takeWhile (· ≠ ':')) with
      | .error e => return .error (.corner name e)
      | .ok a =>
        match ← Machine.read? second with
        | .error e => return .error (.corner name e)
        | .ok b => return .ok (spanning a b)

/-- The characters of the written form of a range. -/
def chars? (c : Corners) : Option (List Char) := do
  let first ← Machine.chars? c.first
  let last ← Machine.chars? c.last
  return first ++ ':' :: last

/-- The number of columns. -/
def cols? (c : Corners) : Option (BitVec 64) := count? c.first.col c.last.col

/-- The number of rows. -/
def rows? (c : Corners) : Option (BitVec 64) := count? c.first.row c.last.row

/-- The number of cells. -/
def size? (c : Corners) : Option (BitVec 64) := do
  let rows ← c.rows?
  let cols ← c.cols?
  mul? rows cols

/-- The corners of two positions are those of the range the addresses span. -/
theorem spanning_ofAddress (a b : Address) :
    spanning (Position.ofAddress a) (Position.ofAddress b) = ofRange (Range.spanning a b) := by
  simp only [spanning, Position.ofAddress, least_ofNat a.col_lt_two_pow b.col_lt_two_pow,
    least_ofNat a.row_lt_two_pow b.row_lt_two_pow,
    greatest_ofNat a.col_lt_two_pow b.col_lt_two_pow,
    greatest_ofNat a.row_lt_two_pow b.row_lt_two_pow]
  rfl

/-- Reading a range in words never overflows, and gives the words of what is read on numbers. -/
theorem read?_eq (whole : List Char) :
    read? whole = some ((Range.ofChars whole).map ofRange) := by
  rw [read?, Range.ofChars]
  rcases whole.dropWhile (· ≠ ':') with _ | ⟨c, second⟩
  · rfl
  · dsimp only
    by_cases hcolon : second.contains ':' = true
    · rw [if_pos hcolon, if_pos hcolon]
      rfl
    · rw [if_neg hcolon, if_neg hcolon, Machine.read?_eq, Machine.read?_eq]
      rcases Address.ofChars (whole.takeWhile (· ≠ ':')) with e | a
      · rfl
      · rcases Address.ofChars second with e | b
        · rfl
        · exact congrArg (some ∘ Except.ok) (spanning_ofAddress a b)

theorem chars?_ofRange (r : Range) : chars? (ofRange r) = some r.text.toList := by
  rw [chars?, ofRange, chars?_ofAddress, chars?_ofAddress]
  simp only [Option.bind_eq_bind, Option.bind_some, Range.text, Address.text, String.toList_append,
    String.toList_ofList]
  simp

theorem cols?_ofRange (r : Range) : (ofRange r).cols? = some (BitVec.ofNat 64 r.width) :=
  count?_ofNat r.col_le r.last.col_lt

theorem rows?_ofRange (r : Range) : (ofRange r).rows? = some (BitVec.ofNat 64 r.height) :=
  count?_ofNat r.row_le r.last.row_lt

end Corners

end Machine

namespace Range

variable (r : Range)

/-- A range is no wider than the grid. -/
theorem width_le : r.width ≤ 2 ^ 32 := by
  have hlast := r.last.col_lt_two_pow
  unfold width
  omega

theorem height_le : r.height ≤ 2 ^ 32 := by
  have hlast := r.last.row_lt_two_pow
  unfold height
  omega

/-- Only the whole grid has more cells than a word of 64 bits can count. -/
theorem size_lt_iff : r.size < 2 ^ 64 ↔ ¬ r.IsWholeGrid := by
  have hwidth := r.width_le
  have hheight := r.height_le
  -- Only the whole grid has both sides of full length; otherwise one factor is smaller.
  have hfull : r.IsWholeGrid ↔ r.width = 2 ^ 32 ∧ r.height = 2 ^ 32 := by
    have hcol := r.last.col_lt_two_pow
    have hrow := r.last.row_lt_two_pow
    unfold IsWholeGrid width height
    omega
  rw [hfull, size]
  by_cases hw : r.width = 2 ^ 32
  · by_cases hh : r.height = 2 ^ 32
    · rw [hw, hh]
      decide
    · have hsmall : r.height < 2 ^ 32 := by omega
      rw [hw]
      omega
  · have hsmall : r.width ≤ 2 ^ 32 - 1 := by omega
    have hproduct : r.height * r.width ≤ 2 ^ 32 * (2 ^ 32 - 1) := Nat.mul_le_mul hheight hsmall
    omega

end Range

namespace Machine

namespace Corners

/-- The number of cells fits in a word of 64 bits for every range but the whole grid. -/
theorem size?_ofRange {r : Range} (h : ¬ r.IsWholeGrid) :
    (ofRange r).size? = some (BitVec.ofNat 64 r.size) := by
  have hwidth := r.width_le
  have hheight := r.height_le
  rw [size?, rows?_ofRange, cols?_ofRange]
  exact mul?_ofNat (by omega) (by omega) (r.size_lt_iff.2 h)

end Corners

/-- A walk over a range with words. -/
structure Walk where
  /-- The corners of the range. -/
  corners : Corners
  /-- The offset of the next cell. -/
  next : BitVec 64
  /-- The number of cells. -/
  size : BitVec 64
  deriving DecidableEq

/-- The walk over a range before its first call. -/
def Corners.walk? (c : Corners) : Option Walk := do
  let size ← c.size?
  return ⟨c, 0#64, size⟩

namespace Walk

/-- How many cells are still to be visited. -/
def remaining? (w : Walk) : Option (BitVec 64) := sub? w.size w.next

/-- One call: the next cell, if there is one, and the walk after it. -/
def call? (w : Walk) : Option (Option Position × Walk) :=
  if w.size ≤ w.next then some (none, w)
  else do
    let width ← w.corners.cols?
    let right ← mod? w.next width
    let col ← add? (w.corners.first.col.setWidth 64) right
    let down ← div? w.next width
    let row ← add? (w.corners.first.row.setWidth 64) down
    let next ← add? w.next 1#64
    let col ← narrow? 32 col
    let row ← narrow? 32 row
    return (some ⟨col, row⟩, ⟨w.corners, next, w.size⟩)

/-- The walk after a number of calls. -/
def after? (w : Walk) : ℕ → Option Walk
  | 0 => some w
  | n + 1 => do
    let before ← w.after? n
    let call ← before.call?
    return call.2

/-- The words of a walk. -/
def ofWalk (w : Range.Walk) : Walk :=
  ⟨Corners.ofRange w.range, BitVec.ofNat 64 w.visited, BitVec.ofNat 64 w.range.size⟩

variable {r : Range} {n : ℕ}

/-- A walk over any range but the whole grid starts as the walk on numbers does. -/
theorem walk?_ofRange (h : ¬ r.IsWholeGrid) : (Corners.ofRange r).walk? = some (ofWalk r.walk) := by
  rw [Corners.walk?, Corners.size?_ofRange h]
  rfl

/-- A call never leaves the bounds. -/
theorem call?_ofWalk (h : ¬ r.IsWholeGrid) (hn : n ≤ r.size) : call? (ofWalk ⟨r, n⟩) =
    some ((Range.Walk.call ⟨r, n⟩).1.map Position.ofAddress,
      ofWalk (Range.Walk.call ⟨r, n⟩).2) := by
  have hsize := r.size_lt_iff.2 h
  -- The end of the walk is told in words as on numbers, since neither number overflows.
  have hend : BitVec.ofNat 64 r.size ≤ BitVec.ofNat 64 n ↔ r.size ≤ n :=
    le_ofNat hsize (by omega)
  rw [call?, ofWalk]
  simp only [hend]
  by_cases hle : r.size ≤ n
  · rw [if_pos hle, Range.Walk.call_of_le hle]
    rfl
  · have hlt : n < r.size := Nat.not_le.1 hle
    have hpos : 0 < r.width := Nat.succ_pos _
    have hwidth := r.width_le
    -- The cell lies in the range and with it in the grid, so no sum below leaves its word.
    have hcol : r.first.col + n % r.width < 2 ^ 32 := (r.cellAt n hlt).col_lt
    have hrow : r.first.row + n / r.width < 2 ^ 32 := (r.cellAt n hlt).row_lt
    have hright : mod? (BitVec.ofNat 64 n) (BitVec.ofNat 64 r.width) =
        some (BitVec.ofNat 64 (n % r.width)) := mod?_ofNat (by omega) (by omega) hpos
    have hdown : div? (BitVec.ofNat 64 n) (BitVec.ofNat 64 r.width) =
        some (BitVec.ofNat 64 (n / r.width)) := div?_ofNat (by omega) (by omega) hpos
    have hcols : add? ((BitVec.ofNat 32 r.first.col).setWidth 64) (BitVec.ofNat 64 (n % r.width)) =
        some (BitVec.ofNat 64 (r.first.col + n % r.width)) := by
      rw [setWidth_ofNat r.first.col_lt_two_pow, add?_ofNat (by omega)]
    have hrows : add? ((BitVec.ofNat 32 r.first.row).setWidth 64) (BitVec.ofNat 64 (n / r.width)) =
        some (BitVec.ofNat 64 (r.first.row + n / r.width)) := by
      rw [setWidth_ofNat r.first.row_lt_two_pow, add?_ofNat (by omega)]
    have hnext : add? (BitVec.ofNat 64 n) 1#64 = some (BitVec.ofNat 64 (n + 1)) :=
      add?_ofNat (by omega)
    have hcol' := narrow?_ofNat (w := 64) (by omega) hcol
    have hrow' := narrow?_ofNat (w := 64) (by omega) hrow
    rw [if_neg hle, Range.Walk.call_of_lt hlt, Range.getElem?_cells hlt, Corners.cols?_ofRange]
    simp only [Option.bind_eq_bind, Option.bind_some, Corners.ofRange, Position.ofAddress, hright,
      hcols, hdown, hrows, hnext, hcol', hrow']
    rfl

/-- Nor does any number of calls. -/
theorem after?_walk (h : ¬ r.IsWholeGrid) (n : ℕ) :
    after? (ofWalk r.walk) n = some (ofWalk (r.walk.after n)) := by
  induction n with
  | zero => rfl
  | succ n ih =>
      have hcall := call?_ofWalk h (Nat.min_le_right n r.size)
      rw [← Range.Walk.after_walk] at hcall
      rw [after?, ih]
      simp only [Option.bind_eq_bind, Option.bind_some, hcall]
      rfl

/-- After any number of steps, what is left to walk is the size less the steps. -/
theorem remaining?_after (h : ¬ r.IsWholeGrid) (n : ℕ) :
    remaining? (ofWalk (r.walk.after n)) = some (BitVec.ofNat 64 (r.size - n)) := by
  have hsize := r.size_lt_iff.2 h
  rw [Range.Walk.after_walk, remaining?, ofWalk]
  refine (sub?_ofNat hsize (Nat.min_le_right _ _)).trans ?_
  rw [show r.size - min n r.size = r.size - n by omega]

end Walk

end Machine

end Worksheet
