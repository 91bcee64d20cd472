import Worksheet.Proofs.Address.Codec
import Worksheet.Proofs.Reference.Landing

/-!
# Shifts in words

How far references move, and behind which column and row, are numbers with a sign in words of 64
bits. An index of the grid fits such a word, but an index that moves may not. The sum overflows only
if it is far beyond the grid, so a reference that is lost for this reason is lost anyway.

## Main definitions

* `Machine.Shift`: A movement of references in words.
* `Machine.Shift.numbers`: The movement that the words stand for.
* `Machine.moveIndex?`: An index after moving, unless it overflows.
* `Machine.textAt?`: The written form of a position given by two words with a sign.
* `Machine.Shift.shiftWord?`: A word of a text after the shift.

## Theorems

* `Machine.moveIndex?_cases`: An index moves as it should, or far beyond the grid.
* `Machine.textAt?_eq`: Writing a position given by two words.
* `Machine.Shift.shiftWord?_eq`: A word after a shift in words is the word after the shift.
-/

namespace Worksheet

namespace Machine

/-- A movement of references in words. -/
structure Shift where
  /-- How many columns to the right. -/
  cols : BitVec 64
  /-- How many rows down. -/
  rows : BitVec 64
  /-- Only columns with a greater index move. -/
  afterCol : BitVec 64
  /-- Only rows with a greater index move. -/
  afterRow : BitVec 64
  deriving DecidableEq

/-- The movement that the words stand for, read with a sign. -/
def Shift.numbers (s : Shift) : Worksheet.Shift :=
  ⟨s.cols.toInt, s.rows.toInt, s.afterCol.toInt, s.afterRow.toInt⟩

/-- An index after moving by `delta` if it is greater than `after`, unless the sum overflows. -/
def moveIndex? (delta after : BitVec 64) (index : BitVec 32) : Option (BitVec 64) :=
  let wide := index.setWidth 64
  if after.slt wide then addSigned? wide delta else some wide

/-- The index that a word with a sign is, if it is one of the grid. -/
def index? (x : BitVec 64) : Option (BitVec 32) :=
  if 0 ≤ x.toInt ∧ x.toInt < 2 ^ 32 then some (x.setWidth 32) else none

/-- The characters of the written form of the position with the given indices, and nothing if it is
    outside the grid. -/
def textAt? (col row : BitVec 64) : Option (List Char) :=
  match index? col, index? row with
  | some col, some row => chars? ⟨col, row⟩
  | _, _ => some []

/-- What stands in a text for a reference after the shift. -/
def Shift.shiftAddress? (s : Shift) (p : Position) : Option (List Char) :=
  match moveIndex? s.cols s.afterCol p.col, moveIndex? s.rows s.afterRow p.row with
  | some col, some row =>
    if (0#64).sle col && (0#64).sle row then do
      let text ← textAt? col row
      return if text.isEmpty then Worksheet.Shift.lostReference.toList else text
    else some Worksheet.Shift.lostReference.toList
  | _, _ => some Worksheet.Shift.lostReference.toList

/-- A word of a text after the shift: a reference follows its cell, any other word stays. -/
def Shift.shiftWord? (s : Shift) (word : List Char) : Option (List Char) := do
  match ← read? word with
  | .error _ => return word
  | .ok p => s.shiftAddress? p

/-- An index moves as it should, or far beyond the grid. -/
theorem moveIndex?_cases (delta after : BitVec 64) {index : ℕ} (h : index < 2 ^ 32) :
    (∃ x, moveIndex? delta after (BitVec.ofNat 32 index) = some x ∧
      x.toInt = Worksheet.Shift.moveIndex delta.toInt after.toInt index) ∨
    moveIndex? delta after (BitVec.ofNat 32 index) = none ∧
      2 ^ 63 ≤ Worksheet.Shift.moveIndex delta.toInt after.toInt index := by
  have hwide : (BitVec.ofNat 64 index).toInt = index := toInt_ofNat (by omega)
  rw [moveIndex?, setWidth_ofNat h, Worksheet.Shift.moveIndex]
  by_cases hafter : after.toInt < index
  · rw [if_pos (by rw [BitVec.slt_iff_toInt_lt, hwide]; exact hafter), if_pos hafter]
    rcases addSigned?_cases (BitVec.ofNat 64 index) delta with ⟨x, hx, hsum⟩ | ⟨hnone, hout⟩
    · exact Or.inl ⟨x, hx, by rw [hsum, hwide]⟩
    · -- An index is not negative, so the sum is not below the lower bound.
      have hlow := delta.le_toInt
      rw [hwide] at hout
      exact Or.inr ⟨hnone, by omega⟩
  · rw [if_neg (by rw [BitVec.slt_iff_toInt_lt, hwide]; exact hafter), if_neg hafter]
    exact Or.inl ⟨_, rfl, hwide⟩

theorem index?_cases (x : BitVec 64) :
    (∃ n : ℕ, n < 2 ^ 32 ∧ x.toInt = n ∧ index? x = some (BitVec.ofNat 32 n)) ∨
      (x.toInt < 0 ∨ 2 ^ 32 ≤ x.toInt) ∧ index? x = none := by
  rw [index?]
  by_cases h : 0 ≤ x.toInt ∧ x.toInt < 2 ^ 32
  · left
    -- A number that is not negative is read the same signed and unsigned.
    have hnat : x.toInt = x.toNat := by
      have hcond := x.toInt_eq_toNat_cond
      split_ifs at hcond
      · exact hcond
      · have := x.isLt
        omega
    refine ⟨x.toNat, by omega, hnat, ?_⟩
    rw [if_pos h, Option.some.injEq]
    refine BitVec.eq_of_toNat_eq ?_
    rw [BitVec.toNat_setWidth, BitVec.toNat_ofNat]
  · rw [if_neg h]
    exact Or.inr ⟨by omega, rfl⟩

theorem textAt?_eq (col row : BitVec 64) :
    textAt? col row = some (Address.textAt col.toInt row.toInt).toList := by
  have houtside : (col.toInt < 0 ∨ 2 ^ 32 ≤ col.toInt ∨ row.toInt < 0 ∨ 2 ^ 32 ≤ row.toInt) →
      Address.textAt col.toInt row.toInt = "" := Address.textAt_eq_empty_iff.2
  rw [textAt?]
  -- An index outside the grid is refused on both sides, whichever of the two it is.
  rcases index?_cases col with ⟨m, hm, hcol, hindex⟩ | ⟨hout, hindex⟩
  · rcases index?_cases row with ⟨n, hn, hrow, hindex'⟩ | ⟨hout, hindex'⟩
    · have hsome : Address.ofInts? col.toInt row.toInt = some ⟨m, n, hm, hn⟩ :=
        Address.ofInts?_eq_some_iff.2 ⟨hcol.symm, hrow.symm⟩
      rw [hindex, hindex', Address.textAt, hsome]
      exact (chars?_ofAddress ⟨m, n, hm, hn⟩).trans (congrArg some String.toList_ofList.symm)
    · rw [hindex, hindex', houtside (by omega)]
      rfl
  · rw [hindex, houtside (by omega)]
    rfl

namespace Shift

variable {s : Shift} {a b : Address}

/-- A reference that lands is written as the cell it is moved to. -/
theorem shiftAddress?_of_move (h : s.numbers.move a = some b) :
    s.shiftAddress? (Position.ofAddress a) = some b.chars := by
  rcases Worksheet.Shift.move_eq_some_iff.1 h with ⟨hcol, hrow⟩
  rcases moveIndex?_cases s.cols s.afterCol a.col_lt_two_pow with ⟨x, hx, hcols⟩ | ⟨_, hout⟩
  · rcases moveIndex?_cases s.rows s.afterRow a.row_lt_two_pow with ⟨y, hy, hrows⟩ | ⟨_, hout⟩
    · have hx' : (b.col : ℤ) = x.toInt := hcol.trans hcols.symm
      have hy' : (b.row : ℤ) = y.toInt := hrow.trans hrows.symm
      have hsign : ((0#64).sle x && (0#64).sle y) = true := by
        rw [Bool.and_eq_true, BitVec.sle_iff_toInt_le, BitVec.sle_iff_toInt_le, ← hx', ← hy']
        exact ⟨Int.natCast_nonneg _, Int.natCast_nonneg _⟩
      have htext : textAt? x y = some b.chars := by
        rw [textAt?_eq, Address.textAt, Address.ofInts?_eq_some_iff.2 ⟨hx', hy'⟩]
        exact congrArg some String.toList_ofList
      simp only [shiftAddress?, Position.ofAddress, hx, hy, if_pos hsign, htext,
        Option.bind_eq_bind, Option.bind_some, List.isEmpty_eq_false_iff.2 b.chars_ne_nil]
      rfl
    · have hlt := b.row_lt_two_pow
      change (b.row : ℤ) = Worksheet.Shift.moveIndex s.rows.toInt s.afterRow.toInt a.row at hrow
      omega
  · have hlt := b.col_lt_two_pow
    change (b.col : ℤ) = Worksheet.Shift.moveIndex s.cols.toInt s.afterCol.toInt a.col at hcol
    omega

/-- A reference that does not land is lost: an index overflows, or is negative, or has no written
    form. -/
theorem shiftAddress?_of_not_lands (h : ¬ s.numbers.Lands a) :
    s.shiftAddress? (Position.ofAddress a) = some Worksheet.Shift.lostReference.toList := by
  rw [shiftAddress?]
  rcases moveIndex?_cases s.cols s.afterCol a.col_lt_two_pow with ⟨x, hx, hcols⟩ | ⟨hx, _⟩
  · rcases moveIndex?_cases s.rows s.afterRow a.row_lt_two_pow with ⟨y, hy, hrows⟩ | ⟨hy, _⟩
    · -- Without a negative index one is beyond the grid, which only the empty text tells.
      have hempty : Address.textAt x.toInt y.toInt = "" := by
        rw [hcols, hrows, Address.textAt_eq_empty_iff]
        by_contra hin
        simp only [not_or, not_lt, not_le] at hin
        exact h ⟨⟨hin.1, hin.2.1⟩, hin.2.2.1, hin.2.2.2⟩
      simp only [Position.ofAddress, hx, hy, textAt?_eq, hempty, Option.bind_eq_bind,
        Option.bind_some]
      split <;> rfl
    · simp only [Position.ofAddress, hx, hy]
  · simp only [Position.ofAddress, hx]

-- Lost references look the same, whether the sum overflows or only leaves the grid.
theorem shiftAddress?_eq (s : Shift) (a : Address) : s.shiftAddress? (Position.ofAddress a) =
    some (((s.numbers.move a).map Address.chars).getD Worksheet.Shift.lostReference.toList) := by
  cases hmove : s.numbers.move a with
  | some b => exact shiftAddress?_of_move hmove
  | none =>
      refine shiftAddress?_of_not_lands fun hlands => ?_
      rcases Worksheet.Shift.exists_move_iff.2 hlands with ⟨b, hb⟩
      rw [hmove] at hb
      cases hb

/-- A word after a shift in words is the word after the shift. -/
theorem shiftWord?_eq (s : Shift) (word : List Char) :
    s.shiftWord? word = some (s.numbers.shiftWord word) := by
  rw [shiftWord?, read?_eq]
  cases hread : Address.ofChars word with
  | error e =>
      have hnone : Address.ofChars? word = none := by
        rw [Address.ofChars?, hread]
        rfl
      rw [Worksheet.Shift.shiftWord_of_other hnone]
      rfl
  | ok a =>
      have hsome : Address.ofChars? word = some a := by
        rw [Address.ofChars?, hread]
        rfl
      rw [Worksheet.Shift.shiftWord_of_ofChars? hsome]
      simp only [Except.map, Option.bind_eq_bind, Option.bind_some]
      exact s.shiftAddress?_eq a

end Shift

end Machine

end Worksheet
