import Worksheet.Proofs.Machine.Shift
import Worksheet.Proofs.Reference.Mentions
import Worksheet.Proofs.Text.Pattern

/-!
# References found by a pattern

References are looked for with a pattern: a word starts, letters, digits, and a word ends. Letters
are compared without regard to case, so two letters outside ASCII are among them. All of these are
word characters, and a word that starts and ends at the two ends of a match is a whole one. So the
pattern finds exactly the candidates among the words of a text, and a shift that replaces what is
found by it changes the addresses in a text and nothing else.

## Main definitions

* `Reference.pattern`: Letters and then digits that make up a word.
* `Machine.Shift.shiftText?`: A text after a shift, computed with the pattern and with words.
* `Shift.Rewrites`: What stands for a piece of a text after a shift.

## Theorems

* `Reference.mem_matchesAll_candidate_iff`: A candidate at the start of a match.
* `Reference.mem_matchesAll_pattern_iff`: What the steps of the pattern take and check.
* `Reference.pattern_findsWords`: The pattern finds the candidates among the words.
* `Shift.rewrites_shiftPiece`: A shift rewrites each piece of a text as it should.
* `Machine.Shift.shiftText?_eq`: A shift computed with the pattern and with words.
* `Machine.Shift.rewrites_addresses`: A shift changes the addresses in a text and nothing else.
-/

namespace Worksheet

open Text

namespace Reference

theorem isWord_of_isLetter {c : Char} (h : isLetter c = true) : isWord c = true := by
  rw [isLetter, Bool.or_eq_true, Bool.or_eq_true, decide_eq_true_iff, decide_eq_true_iff] at h
  rcases h with (h | rfl) | rfl
  · exact isWord_of_isAlphanum (by rw [Char.isAlphanum, h, Bool.true_or])
  · decide +kernel
  · decide +kernel

theorem isWord_of_isDigit {c : Char} (h : c.isDigit = true) : isWord c = true :=
  isWord_of_isAlphanum (isAlphanum_of_isDigit h)

/-- Letters and then digits that make up a word. -/
def pattern : Pattern where
  steps := [.boundary, .run isLetter, .run Char.isDigit, .boundary]
  takes := ⟨isLetter, List.mem_cons_of_mem _ List.mem_cons_self⟩

section Matches

variable {p : Place} {m : Match}

/-- A candidate is made of word characters. -/
theorem isWord_of_isCandidate {word : List Char} (h : isCandidate word = true) :
    ∀ c ∈ word, isWord c = true := by
  rcases isCandidate_iff.1 h with ⟨letters, digits, rfl, hletters, hdigits⟩
  exact List.forall_mem_append.2 ⟨fun c hc => isWord_of_isLetter (hletters.2 c hc),
    fun c hc => isWord_of_isDigit (hdigits.2 c hc)⟩

theorem ne_nil_of_isCandidate {word : List Char} (h : isCandidate word = true) : word ≠ [] := by
  rintro rfl
  cases h

/-- Letters and digits that are taken one after the other are a candidate. -/
theorem mem_matchesAll_candidate_iff {more : List Step} :
    m ∈ Step.matchesAll (.run isLetter :: .run Char.isDigit :: more) p ↔ ∃ word later,
      isCandidate word = true ∧
        (∃ rest, p.rest = word ++ rest ∧ later ∈ Step.matchesAll more ⟨word.getLast?, rest⟩) ∧
          m = ⟨word ++ later.taken, later.place⟩ := by
  constructor
  · -- The two runs of a match are one word, and what is before the others is the last of its
    -- digits.
    intro hm
    rcases mem_matchesAll_run_iff.1 hm with ⟨letters, m₁, hletters, ⟨rest₁, htext₁, hm₁⟩, rfl⟩
    rcases mem_matchesAll_run_iff.1 hm₁ with ⟨digits, m₂, hdigits, ⟨rest₂, htext₂, hm₂⟩, rfl⟩
    dsimp only at htext₂ ⊢
    rw [← List.append_assoc]
    refine ⟨letters ++ digits, m₂, isCandidate_iff.2 ⟨letters, digits, rfl, hletters, hdigits⟩,
      ⟨rest₂, ?_, ?_⟩, rfl⟩
    · rw [htext₁, htext₂, List.append_assoc]
    · rw [List.getLast?_append_of_ne_nil letters hdigits.1]
      exact hm₂
  · rintro ⟨word, later, hcandidate, ⟨rest, htext, hlater⟩, rfl⟩
    rcases isCandidate_iff.1 hcandidate with ⟨letters, digits, rfl, hletters, hdigits⟩
    rw [List.getLast?_append_of_ne_nil letters hdigits.1] at hlater
    rw [List.append_assoc] at htext ⊢
    exact mem_matchesAll_run_iff.2 ⟨letters, _, hletters, ⟨digits ++ rest, htext,
      mem_matchesAll_run_iff.2 ⟨digits, later, hdigits, ⟨rest, rfl, hlater⟩, rfl⟩⟩, rfl⟩

/-- What the steps of the pattern take, and what they check before and behind it. -/
theorem mem_matchesAll_pattern_iff : m ∈ Step.matchesAll pattern.steps p ↔
    p.isBoundary = true ∧ m.place.isBoundary = true ∧ isCandidate m.taken = true ∧
      p.rest = m.taken ++ m.place.rest ∧ m.place.before = m.taken.getLast? := by
  rw [pattern, mem_matchesAll_boundary_iff, mem_matchesAll_candidate_iff]
  constructor
  · -- Behind the word the pattern asks for a boundary and takes nothing more.
    rintro ⟨hstart, word, later, hcandidate, ⟨rest, htext, hlater⟩, rfl⟩
    rcases mem_matchesAll_boundary_iff.1 hlater with ⟨hstop, hlater⟩
    cases mem_matchesAll_nil_iff.1 hlater
    dsimp only
    rw [List.append_nil]
    exact ⟨hstart, hstop, hcandidate, htext, rfl⟩
  · rcases m with ⟨word, last, rest⟩
    rintro ⟨hstart, hstop, hcandidate, htext, hlast⟩
    dsimp only at hcandidate htext hlast
    subst hlast
    refine ⟨hstart, word, ⟨[], ⟨word.getLast?, rest⟩⟩, hcandidate, ⟨rest, htext, ?_⟩, ?_⟩
    · exact mem_matchesAll_boundary_iff.2 ⟨hstop, mem_matchesAll_nil_iff.2 rfl⟩
    · rw [List.append_nil]

/-- The pattern finds the candidates among the words of a text. -/
theorem pattern_findsWords : pattern.FindsWords isCandidate := by
  intro p m
  rw [mem_matchesAll_pattern_iff]
  -- Where a candidate is taken, a word starts in front of it and ends behind it.
  constructor
  · rintro ⟨hstart, hstop, hcandidate, htext, hlast⟩
    have hne := ne_nil_of_isCandidate hcandidate
    have hword := isWord_of_isCandidate hcandidate
    have hbehind : m.place.before.any isWord = true := hlast ▸ any_getLast? hne hword
    exact ⟨⟨hne, hword⟩, hcandidate, (Place.isBoundary_of_word hne hword htext).1 hstart, htext,
      (Place.isBoundary_of_before hbehind).1 hstop, hlast⟩
  · rintro ⟨⟨hne, hword⟩, hcandidate, hbefore, htext, hends, hlast⟩
    have hbehind : m.place.before.any isWord = true := hlast ▸ any_getLast? hne hword
    exact ⟨(Place.isBoundary_of_word hne hword htext).2 hbefore,
      (Place.isBoundary_of_before hbehind).2 hends, hcandidate, htext, hlast⟩

end Matches

end Reference

namespace Shift

/-- What stands for a piece of a text after a shift. A word that is an address is replaced by the
    written form of the address with the indices moved, or by a mark if they leave the grid. -/
inductive Rewrites (s : Shift) : Piece → List Char → Prop where
  /-- A character between words stays. -/
  | mark (c : Char) : Rewrites s (.mark c) [c]
  /-- A word that is no address stays. -/
  | other {run : List Char} (h : ∀ a, Address.parse (String.ofList run) ≠ .ok a) :
      Rewrites s (.word run) run
  /-- An address moves. -/
  | moved {run : List Char} {a b : Address} (h : Address.parse (String.ofList run) = .ok a)
      (hcol : (b.col : Int) = moveIndex s.cols s.afterCol a.col)
      (hrow : (b.row : Int) = moveIndex s.rows s.afterRow a.row) :
      Rewrites s (.word run) b.text.toList
  /-- An address is lost. -/
  | lost {run : List Char} {a : Address} (h : Address.parse (String.ofList run) = .ok a)
      (hout : ¬ s.Lands a) : Rewrites s (.word run) "#REF!".toList

/-- A shift rewrites each piece of a text as the relation says. -/
theorem rewrites_shiftPiece (s : Shift) (p : Piece) : s.Rewrites p (s.shiftPiece p) := by
  -- Texts and lists of characters are told apart here, so that the cases speak of lists.
  have hparse : ∀ (run : List Char) (a : Address),
      Address.parse (String.ofList run) = .ok a ↔ Address.ofChars? run = some a := by
    intro run a
    rw [Address.ofChars?, toOption_eq_some_iff, Address.parse, String.toList_ofList]
  cases p with
  | mark c => exact .mark c
  | word run =>
      rw [shiftPiece]
      cases hrun : Address.ofChars? run with
      | none =>
          rw [shiftWord_of_other hrun]
          refine .other fun a ha => ?_
          rw [hparse, hrun] at ha
          cases ha
      | some a =>
          rw [shiftWord_of_ofChars? hrun]
          by_cases hlands : s.Lands a
          · rcases exists_move_iff.2 hlands with ⟨b, hb⟩
            have hmoved := move_eq_some_iff.1 hb
            have hchars : ((s.move a).map Address.chars).getD lostReference.toList =
                b.text.toList := by
              rw [hb, Address.text, String.toList_ofList]
              rfl
            rw [hchars]
            exact .moved ((hparse run a).2 hrun) hmoved.1 hmoved.2
          · rw [move_eq_none hlands]
            exact .lost ((hparse run a).2 hrun) hlands

end Shift

namespace Machine

namespace Shift

/-- A text after a shift, computed with the pattern and with words. -/
def shiftText? (s : Shift) (text : String) : Option String :=
  (Reference.pattern.replaceAll? s.shiftWord? text.toList).map String.ofList

/-- A shift computed with the pattern and with words never leaves the bounds, and changes the words
    of a text one by one. -/
theorem shiftText?_eq (s : Shift) (text : String) :
    s.shiftText? text = some (s.numbers.shiftText text) := by
  -- A word that is no candidate is no address, so the shift would keep it, too.
  have hpiece : Piece.replace Reference.isCandidate s.numbers.shiftWord = s.numbers.shiftPiece := by
    funext p
    cases p with
    | mark c => rfl
    | word run =>
        rw [Piece.replace, Worksheet.Shift.shiftPiece]
        by_cases h : Reference.isCandidate run = true
        · rw [if_pos h]
        · rw [if_neg h, Worksheet.Shift.shiftWord_of_other]
          rw [Option.eq_none_iff_forall_ne_some]
          exact fun a ha => h (Reference.isCandidate_of_ofChars? ha)
  rw [shiftText?, Reference.pattern_findsWords.replaceAll?_eq s.shiftWord?_eq, hpiece]
  rfl

/-- A shift rewrites the addresses in a text and nothing else. There is one way to cut a text into
    maximal words and the characters between them. Each of these is rewritten on its own, with
    indices that are moved as numbers without bounds, although they are moved as words. -/
theorem rewrites_addresses (s : Shift) (text : String) :
    ∃ ps, IsCut ps text.toList ∧ (∀ qs, IsCut qs text.toList → qs = ps) ∧
      ∃ parts, List.Forall₂ s.numbers.Rewrites ps parts ∧
        s.shiftText? text = some (String.ofList parts.flatten) ∧
        s.numbers.shiftText text = String.ofList parts.flatten := by
  have hparts : s.numbers.shiftText text =
      String.ofList ((pieces text.toList).map s.numbers.shiftPiece).flatten := by
    rw [Worksheet.Shift.shiftText, Worksheet.Shift.shiftChars, List.flatMap_def]
  refine ⟨pieces text.toList, isCut_pieces _, fun qs hqs => hqs.eq_pieces,
    (pieces text.toList).map s.numbers.shiftPiece, ?_, ?_, hparts⟩
  · rw [List.forall₂_map_right_iff, List.forall₂_same]
    exact fun p _ => s.numbers.rewrites_shiftPiece p
  · rw [shiftText?_eq, hparts]

end Shift

end Machine

end Worksheet
