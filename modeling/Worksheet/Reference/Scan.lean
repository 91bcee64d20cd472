import Worksheet.Range.Basic
import Worksheet.Text.Piece

/-!
# References in a text

The cells and the ranges that a text mentions, found without reading it as a formula. A word that
consists of letters and then digits is a candidate. Two candidates with a single colon between them
form one range and count as no cells; every other candidate counts as a cell. Candidates that name
nothing in the grid are passed over.

Letters are compared without regard to case in the sense of Unicode, where the long s and the kelvin
sign belong to `S` and `K`. They make a word a candidate, but no address has them, so such a word
only ever hides the partner of a range.

## Main definitions

* `Reference.isCandidate`: Whether a word consists of letters and then digits.
* `Reference.Mention`: A cell or a range as it is spelled in a text.
* `Reference.mentions`: All mentions, in order.
* `Reference.cells`: The written forms of the cells mentioned, each once.
* `Reference.ranges`: The spellings of the ranges mentioned in capital letters, each once.

## Theorems

* `Reference.nodup_distinct`: Nothing is listed twice.
-/

namespace Worksheet

namespace Reference

open Text

/-- Whether a character equals an ASCII letter when case is ignored. -/
def isLetter (c : Char) : Bool := c.isAlpha || c = '\u017F' || c = '\u212A'

/-- Whether a word consists of letters and then digits, at least one of each. -/
def isCandidate (word : List Char) : Bool :=
  let digits := word.dropWhile isLetter
  !(word.takeWhile isLetter).isEmpty && !digits.isEmpty && digits.all Char.isDigit

/-- A cell or a range as it is spelled in a text. -/
inductive Mention where
  /-- A candidate that is no part of a range. -/
  | cell (word : List Char)
  /-- Two candidates joined by a colon. -/
  | range (first last : List Char)
  deriving DecidableEq, Repr

/-- The mentions in a list of pieces, in order; the cells of a range are not looked at again. -/
def mentionsIn : List Piece → List Mention
  | [] => []
  | .word first :: .mark ':' :: .word last :: rest =>
    if isCandidate first then
      if isCandidate last then .range first last :: mentionsIn rest
      else .cell first :: mentionsIn (.mark ':' :: .word last :: rest)
    else
      mentionsIn (.mark ':' :: .word last :: rest)
  | .word run :: rest =>
    if isCandidate run then .cell run :: mentionsIn rest else mentionsIn rest
  | .mark _ :: rest => mentionsIn rest

/-- The mentions in a text, in order. -/
def mentions (text : List Char) : List Mention := mentionsIn (pieces text)

/-- Each element once, where it stands first. -/
def distinct {α : Type} [BEq α] (items : List α) : List α :=
  items.foldl (fun seen x => if seen.contains x then seen else seen ++ [x]) []

/-- The written form of the cell that a mention stands for. -/
def Mention.cellText? : Mention → Option String
  | .cell word => (Address.ofChars? word).map Address.text
  | .range _ _ => none

/-- The spelling of the range that a mention stands for, in capital letters. -/
def Mention.rangeText? : Mention → Option String
  | .cell _ => none
  | .range first last =>
    let spelling := (first ++ ':' :: last).map Char.toUpper
    (Range.ofChars? spelling).map fun _ => String.ofList spelling

/-- The cells that a text mentions outside ranges, in the order of their first mention. -/
def cells (text : String) : List String :=
  distinct ((mentions text.toList).filterMap Mention.cellText?)

/-- The ranges that a text mentions, in the order of their first mention. Two spellings of one range
    count as two. -/
def ranges (text : String) : List String :=
  distinct ((mentions text.toList).filterMap Mention.rangeText?)

theorem nodup_distinct {α : Type} [BEq α] [LawfulBEq α] (items : List α) :
    (distinct items).Nodup := by
  -- The items seen so far have no repeats, and one is added only if it is new.
  suffices h : ∀ seen : List α, seen.Nodup →
      (items.foldl (fun seen x => if seen.contains x then seen else seen ++ [x]) seen).Nodup from
    h [] List.nodup_nil
  induction items with
  | nil => exact fun seen h => h
  | cons x rest ih =>
    intro seen h
    refine ih _ ?_
    simp only []
    split
    · exact h
    · rename_i hx
      refine List.nodup_append.2 ⟨h, by simp, ?_⟩
      intro a ha b hb
      rw [List.mem_singleton.1 hb]
      rintro rfl
      exact hx (List.contains_iff_mem.2 ha)

end Reference

end Worksheet
