import Worksheet.Proofs.Reference.Landing

/-!
# One shift behind another

The second of two shifts looks for references in a text that the first one has written. It finds the
same words there as long as the first has lost no reference: a moved reference is a word again, and
a word that was no address has stayed. So two shifts come to a third one as soon as they do so for
single addresses, and these move in each direction on their own.

The cutoffs of two shifts may differ. Rows that have been put in behind a row are taken out again by
a shift whose cutoff is that row and the rows put in: what was behind the row then is behind the new
rows now, and what was not has stayed where it was. A reference that is lost by the second shift is
marked as the third one would mark it.

## Main definitions

* `Shift.Follows`: One shift behind another comes to a third one.
* `Shift.keepsPiece`: Whether a shift loses no reference in a piece of a text.

## Theorems

* `Shift.shiftText_shiftText`: Two shifts of a text come to one.
* `Shift.follows_of_moveIndex`: It is enough to look at columns and at rows.
* `Shift.moveIndex_undo`, `Shift.moveIndex_add`: What two moves of an index come to.
* `Shift.shiftText_composes`: Spelling references anew, undoing an insertion, adding up shifts.
-/

namespace Worksheet

open Text

namespace Shift

/-- The shift `t` behind the shift `s` comes to the shift `u` for all addresses that `s` keeps. -/
def Follows (t s u : Shift) : Prop := ∀ a b, s.move a = some b → t.move b = u.move a

variable {s t u : Shift} {text : String} {delta after delta' after' : Int} {i j : Nat}

/-- Whether a shift leaves the address that a piece of a text is, if it is one, in the grid. -/
def keepsPiece (s : Shift) : Piece → Bool
  | .word run => (Address.ofChars? run).all fun a => (s.move a).isSome
  | .mark _ => true

theorem keeps_iff_all {t : List Char} : s.Keeps t ↔ (pieces t).all s.keepsPiece = true := by
  rw [List.all_eq_true]
  have hword : ∀ run, s.keepsPiece (.word run) = true ↔ s.KeepsWord run := by
    intro run
    rw [keepsPiece, Option.all_eq_true]
    simp only [KeepsWord, Option.isSome_iff_exists]
  constructor
  · intro h p hp
    cases p with
    | mark c => rfl
    | word run => exact (hword run).2 (h run hp)
  · exact fun h run hrun => (hword run).1 (h _ hrun)

/-- A word that one shift keeps is found by the next one. -/
theorem shiftWord_shiftWord {run : List Char} (h : s.KeepsWord run) (hfollows : t.Follows s u) :
    t.shiftWord (s.shiftWord run) = u.shiftWord run := by
  rcases shiftWord_cases h with ⟨hother, hsame⟩ | ⟨a, b, ha, hmove, hmoved⟩
  · rw [hsame, shiftWord_of_other hother, shiftWord_of_other hother]
  · rw [hmoved, shiftWord_of_ofChars? (Address.ofChars?_chars b), hfollows a b hmove,
      shiftWord_of_ofChars? ha]

/-- Two shifts of a text come to one, if the first of them loses no reference. -/
theorem shiftText_shiftText (h : s.Keeps text.toList) (hfollows : t.Follows s u) :
    t.shiftText (s.shiftText text) = u.shiftText text := by
  -- The shifted text has the pieces of the text, moved, so pieces can be compared one by one.
  have hpiece : ∀ p ∈ pieces text.toList, t.shiftPiece (s.movePiece p) = u.shiftPiece p := by
    intro p hp
    cases p with
    | mark c => rfl
    | word run => exact shiftWord_shiftWord (h run hp) hfollows
  unfold shiftText
  rw [String.toList_ofList, shiftChars, pieces_shiftChars h, List.flatMap_map, shiftChars]
  exact congrArg String.ofList (List.flatMap_congr hpiece)

/-- Columns and rows move on their own, so two shifts may be compared in each direction. -/
theorem follows_of_moveIndex
    (hcols : ∀ i j : Nat, (j : Int) = moveIndex s.cols s.afterCol i →
      moveIndex t.cols t.afterCol j = moveIndex u.cols u.afterCol i)
    (hrows : ∀ i j : Nat, (j : Int) = moveIndex s.rows s.afterRow i →
      moveIndex t.rows t.afterRow j = moveIndex u.rows u.afterRow i) : t.Follows s u := by
  intro a b hmove
  rcases move_eq_some_iff.1 hmove with ⟨hcol, hrow⟩
  rw [move, move, hcols a.col b.col hcol, hrows a.row b.row hrow]

-- Every index is greater than -1.
theorem moveIndex_all (delta : Int) (i : Nat) : moveIndex delta (-1) i = i + delta :=
  if_pos (by omega)

/-- Moves of all indices add up. -/
theorem moveIndex_add (h : (j : Int) = moveIndex delta (-1) i) :
    moveIndex delta' (-1) j = moveIndex (delta + delta') (-1) i := by
  rw [moveIndex_all] at h ⊢
  rw [moveIndex_all, h, Int.add_assoc]

/-- Moving back behind what has been put in undoes a move. -/
theorem moveIndex_undo (count : Nat) (h : (j : Int) = moveIndex count after i) :
    moveIndex (-count) (after + count) j = moveIndex 0 (-1) i := by
  rw [moveIndex_all]
  unfold moveIndex at h ⊢
  -- An index moves back exactly if it has moved.
  by_cases hafter : (i : Int) > after
  · rw [if_pos hafter] at h
    rw [if_pos (by omega)]
    omega
  · rw [if_neg hafter] at h
    rw [if_neg (by omega)]
    omega

/-- A shift by nothing keeps all references. -/
theorem keeps_still (t : List Char) : (⟨0, 0, -1, -1⟩ : Shift).Keeps t := by
  intro run _ a _
  have hsame : ∀ i : Nat, (i : Int) = moveIndex 0 (-1) i := fun i => by
    rw [moveIndex_all, Int.add_zero]
  exact ⟨a, move_eq_some_iff.2 ⟨hsame a.col, hsame a.row⟩⟩

/-- A shift by nothing spells references in their written form, and doing so again changes nothing.
    Rows or columns that are put in and taken out again leave the text so, as long as no reference
    is pushed out of the grid on the way. Two shifts of all references add up if the first of them
    loses none, and what the second one loses is marked as the sum of both would mark it. -/
theorem shiftText_composes (text : String) :
    let canonical : String → String := (⟨0, 0, -1, -1⟩ : Shift).shiftText
    canonical (canonical text) = canonical text ∧
      (∀ (count : Nat) (after : Int), (⟨0, count, -1, after⟩ : Shift).Keeps text.toList →
        (⟨0, -count, -1, after + count⟩ : Shift).shiftText
          ((⟨0, count, -1, after⟩ : Shift).shiftText text) = canonical text) ∧
      (∀ (count : Nat) (after : Int), (⟨count, 0, after, -1⟩ : Shift).Keeps text.toList →
        (⟨-count, 0, after + count, -1⟩ : Shift).shiftText
          ((⟨count, 0, after, -1⟩ : Shift).shiftText text) = canonical text) ∧
      ∀ c₁ r₁ c₂ r₂ : Int, (⟨c₁, r₁, -1, -1⟩ : Shift).Keeps text.toList →
        (⟨c₂, r₂, -1, -1⟩ : Shift).shiftText ((⟨c₁, r₁, -1, -1⟩ : Shift).shiftText text) =
          (⟨c₁ + c₂, r₁ + r₂, -1, -1⟩ : Shift).shiftText text := by
  -- An index that is not moved stays put afterwards, too.
  have hstill : ∀ i j : Nat, (j : Int) = moveIndex 0 (-1) i →
      moveIndex 0 (-1) j = moveIndex 0 (-1) i := fun i j h => moveIndex_add h
  refine ⟨?_, fun count after hkeeps => ?_, fun count after hkeeps => ?_,
    fun c₁ r₁ c₂ r₂ hkeeps => ?_⟩
  · exact shiftText_shiftText (keeps_still _) (follows_of_moveIndex hstill hstill)
  · exact shiftText_shiftText hkeeps
      (follows_of_moveIndex hstill fun i j h => moveIndex_undo count h)
  · exact shiftText_shiftText hkeeps
      (follows_of_moveIndex (fun i j h => moveIndex_undo count h) hstill)
  · exact shiftText_shiftText hkeeps
      (follows_of_moveIndex (fun i j h => moveIndex_add h) fun i j h => moveIndex_add h)

-- Rows and a column that are inserted within a range and removed again, and a range that loses one
-- corner.
theorem shiftText_composes_range :
    let text := "=SUM(a1:C3)*A0"
    (⟨0, 2, -1, 1⟩ : Shift).Keeps text.toList ∧
      (⟨0, -2, -1, 3⟩ : Shift).shiftText ((⟨0, 2, -1, 1⟩ : Shift).shiftText text) =
        "=SUM(A1:C3)*A0" ∧
      (⟨1, 0, 0, -1⟩ : Shift).Keeps text.toList ∧
      (⟨-1, 0, 1, -1⟩ : Shift).shiftText ((⟨1, 0, 0, -1⟩ : Shift).shiftText text) =
        "=SUM(A1:C3)*A0" ∧
      (⟨1, 0, -1, -1⟩ : Shift).Keeps text.toList ∧
      (⟨-2, 0, -1, -1⟩ : Shift).shiftText ((⟨1, 0, -1, -1⟩ : Shift).shiftText text) =
        "=SUM(#REF!:B3)*A0" := by
  intro text
  have hrows : (⟨0, 2, -1, 1⟩ : Shift).Keeps text.toList := keeps_iff_all.2 (by decide +kernel)
  have hcols : (⟨1, 0, 0, -1⟩ : Shift).Keeps text.toList := keeps_iff_all.2 (by decide +kernel)
  have hmove : (⟨1, 0, -1, -1⟩ : Shift).Keeps text.toList := keeps_iff_all.2 (by decide +kernel)
  have hshift : ∀ {s : Shift} {t : String}, s.shiftChars text.toList = t.toList →
      s.shiftText text = t := fun h => by rw [shiftText, h, String.ofList_toList]
  have hcanonical : (⟨0, 0, -1, -1⟩ : Shift).shiftText text = "=SUM(A1:C3)*A0" :=
    hshift (by decide +kernel)
  have hleft : (⟨-1, 0, -1, -1⟩ : Shift).shiftText text = "=SUM(#REF!:B3)*A0" :=
    hshift (by decide +kernel)
  -- Each of the three is one of the general laws, with its right side worked out.
  rcases shiftText_composes text with ⟨_, hundoRows, hundoCols, hadd⟩
  exact ⟨hrows, (hundoRows 2 1 hrows).trans hcanonical, hcols,
    (hundoCols 1 0 hcols).trans hcanonical, hmove, (hadd 1 0 (-2) 0 hmove).trans hleft⟩

end Shift

end Worksheet
