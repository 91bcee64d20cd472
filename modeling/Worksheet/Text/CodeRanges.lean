/-!
# Sets of code points

A property of characters is stored as the ascending list of the inclusive ranges of code points
that have it. Membership walks the list and stops at the first range that starts above the code
point, which is right as long as the list ascends; `CodeRanges.Ascending` says that it does.

## Main definitions

* `CodeRanges`: Inclusive ranges of code points, lowest first.
* `CodeRanges.holds`: Whether a code point lies in one of the ranges.
* `CodeRanges.Ascending`: Each range ends before the next one starts.

## Theorems

* `CodeRanges.holds_iff`: In an ascending list the walk finds exactly the members.
-/

namespace Worksheet

namespace Text

/-- Inclusive ranges of code points, lowest first. -/
abbrev CodeRanges := List (Nat × Nat)

namespace CodeRanges

/-- Whether a code point lies in one of the ranges; a range that starts above it ends the search. -/
def holds : CodeRanges → Nat → Bool
  | [], _ => false
  | (low, high) :: rest, n => if n < low then false else if n ≤ high then true else holds rest n

/-- Each range is in order and ends before the next one starts. -/
def Ascending : CodeRanges → Prop
  | [] => True
  | (low, high) :: rest => low ≤ high ∧ (∀ r ∈ rest, high < r.1) ∧ Ascending rest

theorem holds_iff (ranges : CodeRanges) (h : Ascending ranges) (n : Nat) :
    holds ranges n = true ↔ ∃ r ∈ ranges, r.1 ≤ n ∧ n ≤ r.2 := by
  induction ranges with
  | nil => simp [holds]
  | cons r rest ih =>
    obtain ⟨low, high⟩ := r
    obtain ⟨_, hlater, hrest⟩ := h
    rw [holds]
    by_cases hlow : n < low
    · -- Below the first range nothing can match: the later ranges lie higher still.
      rw [if_pos hlow]
      refine ⟨fun hf => Bool.noConfusion hf, ?_⟩
      rintro ⟨r, hr, hmem⟩
      rcases List.mem_cons.1 hr with rfl | hr
      · have := hmem.1
        simp only at this
        omega
      · have := hlater r hr
        omega
    · rw [if_neg hlow]
      by_cases hhigh : n ≤ high
      · rw [if_pos hhigh]
        exact ⟨fun _ => ⟨(low, high), List.mem_cons_self, by simp only; omega⟩, fun _ => rfl⟩
      · rw [if_neg hhigh, ih hrest]
        constructor
        · rintro ⟨r, hr, hmem⟩
          exact ⟨r, List.mem_cons_of_mem _ hr, hmem⟩
        · rintro ⟨r, hr, hmem⟩
          rcases List.mem_cons.1 hr with rfl | hr
          · have := hmem.2
            simp only at this
            omega
          · exact ⟨r, hr, hmem⟩

end CodeRanges

end Text

end Worksheet
