import Worksheet.Proofs.Formula.Spelling

/-!
# Ranges in texts

Two addresses with one colon between them name the rectangle that they span, in whatever order they
are given. A range is written with its first cell and its last, so its written form names it.

## Theorems

* `Range.parse_eq_ok_iff`: What it takes to name a range.
* `Range.spanning_eq_iff`: Which cells span the same rectangle.
* `Range.parse_text`: Every range is named by its written form.
-/

namespace Worksheet

open Text Grammar

namespace Range

/-- What it takes to name a range: two addresses with a colon between them. -/
theorem parse_eq_ok_iff {spelling : String} {r : Range} : parse spelling = .ok r ↔
    ∃ first last a b, spelling.toList = first ++ ':' :: last ∧
      Address.ofChars? first = some a ∧ Address.ofChars? last = some b ∧ r = spanning a b := by
  constructor
  · intro h
    have hwhole := List.takeWhile_append_dropWhile (p := (· ≠ ':')) (l := spelling.toList)
    unfold parse ofChars at h
    dsimp only at h
    split at h
    · cases h
    · rename_i c last hdrop
      -- What stops the first part is a colon.
      have hcolon : c = ':' := by
        have hstop := List.head?_dropWhile_not (· ≠ ':') spelling.toList
        rw [hdrop] at hstop
        simpa using hstop
      rw [hdrop, hcolon] at hwhole
      split_ifs at h
      rcases bind_eq_ok_iff.1 h with ⟨a, ha, h⟩
      rcases bind_eq_ok_iff.1 h with ⟨b, hb, h⟩
      cases h
      exact ⟨_, last, a, b, hwhole.symm, toOption_eq_some_iff.2 (mapError_eq_ok_iff.1 ha),
        toOption_eq_some_iff.2 (mapError_eq_ok_iff.1 hb), rfl⟩
  · rintro ⟨first, last, a, b, hspelling, ha, hb, rfl⟩
    rw [parse, hspelling]
    exact mapError_eq_ok_iff.1 ((Lexeme.readPair_eq_ok_iff (Address.isAlphanum_of_ofChars? ha)
      (Address.isAlphanum_of_ofChars? hb)).2 ⟨a, b, ha, hb, rfl⟩)

theorem spanning_corners (r : Range) : spanning r.first r.last = r := by
  have hcol := r.col_le
  have hrow := r.row_le
  ext <;> simp only [spanning, Nat.min_eq_left hcol, Nat.min_eq_left hrow, Nat.max_eq_right hcol,
    Nat.max_eq_right hrow]

/-- Two cells span the rectangle of two others exactly if they have the same columns and the same
    rows: the cells themselves or the other two corners, in either order. -/
theorem spanning_eq_iff {a b c d : Address} : spanning c d = spanning a b ↔
    ((c.col = a.col ∧ d.col = b.col) ∨ (c.col = b.col ∧ d.col = a.col)) ∧
      ((c.row = a.row ∧ d.row = b.row) ∨ (c.row = b.row ∧ d.row = a.row)) := by
  rw [Range.ext_iff, Address.ext_iff, Address.ext_iff]
  simp only [spanning]
  omega

theorem parse_text (r : Range) : parse r.text = .ok r := by
  refine parse_eq_ok_iff.2 ⟨r.first.chars, r.last.chars, r.first, r.last, ?_,
    Address.ofChars?_chars _, Address.ofChars?_chars _, r.spanning_corners.symm⟩
  simp only [text, Address.text, String.toList_append, String.toList_ofList]
  simp

end Range

end Worksheet
