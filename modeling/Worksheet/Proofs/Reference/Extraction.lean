import Worksheet.Proofs.Reference.Search
import Worksheet.Proofs.Text.Groups

/-!
# Cells and ranges found by patterns

The cells and the ranges in a text are looked for with two patterns. Both start where a word starts,
with letters and digits. For a range there is a colon behind them, letters and digits again, and the
end of a word. For a cell the colon and what belongs to it may be missing; if they are there, the
match is passed over.

Both patterns give back what they have taken as long as nothing matches behind it. So `A1` is found
in `A1:B2C` although a colon stands behind it, and nothing is found in `A1B:B2` but the last word.
In the end a match consists of whole words, and the two patterns see the same ranges, though each of
them goes through the text on its own. What they find is what can be read off the words of a text.

## Main definitions

* `Reference.candidate`: Letters and then digits, as a group.
* `Reference.mentionSearch`, `Reference.rangeSearch`: The pattern for cells and that for ranges.

## Theorems

* `Reference.mentionBehind_eq`: In which order a partner and its absence are tried.
* `Reference.fromWord_head?`: A first match takes a whole word first.
* `Reference.mentionSearch_all`, `Reference.rangeSearch_all`: What the patterns find in a text.
* `Reference.cells_eq_search`, `Reference.ranges_eq_search`: The cells and ranges of a text, computed
  with the patterns.
-/

namespace Worksheet

open Text

namespace Reference

open Finder

/-- Letters and then digits. -/
def candidate : Finder (List Char) := group [.run isLetter, .run Char.isDigit]

/-- A colon, and letters and digits behind it. -/
def partner : Finder (List Char) := do
  literal ':'
  candidate

/-- What can be found behind the first of two candidates. -/
def rangeBehind (first : List Char) : Finder Mention := do
  let last ← partner
  boundary
  return .range first last

/-- What can be found behind a candidate that may have a partner. -/
def mentionBehind (first : List Char) : Finder Mention := do
  let last ← Finder.optional partner
  boundary
  return last.elim (.cell first) (.range first)

/-- A word starts with a candidate, and something is behind it. -/
def fromWord (behind : List Char → Finder Mention) : Finder Mention := do
  boundary
  let first ← candidate
  behind first

variable {p : Place}

/-- What the pattern of a reference takes is a candidate in front of the text, and any of them. -/
theorem mem_candidate_iff {found : List Char × Place} : found ∈ candidate p ↔
    isCandidate found.1 = true ∧ p.rest = found.1 ++ found.2.rest ∧
      found.2.before = found.1.getLast? := by
  rw [candidate, group, List.mem_map]
  -- The two runs of the pattern together are the candidate.
  constructor
  · rintro ⟨m, hm, rfl⟩
    rcases mem_matchesAll_candidate_iff.1 hm with ⟨word, later, hword, ⟨rest, htext, hlater⟩, rfl⟩
    cases mem_matchesAll_nil_iff.1 hlater
    dsimp only
    rw [List.append_nil]
    exact ⟨hword, htext, rfl⟩
  · rcases found with ⟨word, last, rest⟩
    rintro ⟨hword, htext, hlast⟩
    dsimp only at hword htext hlast
    subst hlast
    exact ⟨_, mem_matchesAll_candidate_iff.2 ⟨word, _, hword, ⟨rest, htext,
      mem_matchesAll_nil_iff.2 rfl⟩, rfl⟩, by rw [List.append_nil]⟩

/-- What the pattern of a second corner takes is a colon and a candidate behind it. -/
theorem mem_partner_iff {found : List Char × Place} : found ∈ partner p ↔
    isCandidate found.1 = true ∧ p.rest = ':' :: (found.1 ++ found.2.rest) ∧
      found.2.before = found.1.getLast? := by
  rw [partner, bind_apply, List.mem_flatMap]
  constructor
  · rintro ⟨colon, hcolon, hfound⟩
    rcases mem_candidate_iff.1 hfound with ⟨hword, htext, hlast⟩
    rw [← htext]
    exact ⟨hword, (mem_literal_iff.1 hcolon).1, hlast⟩
  · rintro ⟨hword, htext, hlast⟩
    exact ⟨((), ⟨some ':', found.1 ++ found.2.rest⟩), mem_literal_iff.2 ⟨htext, rfl⟩,
      mem_candidate_iff.2 ⟨hword, rfl, hlast⟩⟩

-- Behind a candidate, a word ends exactly where no word goes on.
theorem isBoundary_iff_of_isCandidate {word rest : List Char} (h : isCandidate word = true) :
    Place.isBoundary ⟨word.getLast?, rest⟩ = true ↔ EndsRun isWord rest :=
  Place.isBoundary_of_before (any_getLast? (ne_nil_of_isCandidate h) (isWord_of_isCandidate h))

/-- A range goes on behind its first corner with a colon and a candidate that ends its word. -/
theorem mem_rangeBehind_iff {first : List Char} {found : Mention × Place} :
    found ∈ rangeBehind first p ↔ ∃ last rest, isCandidate last = true ∧
      p.rest = ':' :: (last ++ rest) ∧ EndsRun isWord rest ∧
        found = (.range first last, ⟨last.getLast?, rest⟩) := by
  rw [rangeBehind, bind_apply, List.mem_flatMap]
  constructor
  · rintro ⟨⟨last, q⟩, hlast, hfound⟩
    rcases mem_partner_iff.1 hlast with ⟨hword, htext, hbefore⟩
    rw [bind_apply, List.mem_flatMap] at hfound
    rcases hfound with ⟨⟨_, q'⟩, hend, hfound⟩
    -- The boundary is where the second word ends.
    rcases mem_boundary_iff.1 hend with ⟨hboundary, hq⟩
    rcases q with ⟨before, rest⟩
    dsimp only at hword htext hbefore hboundary hq
    subst hbefore hq
    exact ⟨last, rest, hword, htext, (isBoundary_iff_of_isCandidate hword).1 hboundary,
      List.mem_singleton.1 hfound⟩
  · rintro ⟨last, rest, hword, htext, hends, rfl⟩
    refine ⟨(last, ⟨last.getLast?, rest⟩), mem_partner_iff.2 ⟨hword, htext, rfl⟩, ?_⟩
    rw [bind_apply, List.mem_flatMap]
    exact ⟨((), _), mem_boundary_iff.2 ⟨(isBoundary_iff_of_isCandidate hword).2 hends, rfl⟩,
      List.mem_singleton.2 rfl⟩

/-- The partner is tried first. -/
theorem mentionBehind_eq (first : List Char) (p : Place) : mentionBehind first p =
    rangeBehind first p ++ if p.isBoundary then [(.cell first, p)] else [] := by
  have hboundary : ∀ (m : Mention) (q : Place), (do boundary; return m : Finder Mention) q =
      if q.isBoundary then [(m, q)] else [] := by
    intro m q
    rw [bind_apply, boundary]
    split <;> rfl
  rw [mentionBehind, rangeBehind, bind_apply, bind_apply, Finder.optional, List.flatMap_append,
    List.flatMap_map, List.flatMap_singleton, hboundary]
  rfl

/-- What goes on behind a candidate only if the candidate is a whole word. -/
def KeepsWords (behind : List Char → Finder Mention) : Prop :=
  ∀ first q, q.before.any isWord = true → behind first q ≠ [] → EndsRun isWord q.rest

section FromWord

variable {behind : List Char → Finder Mention} {before : Option Char} {run rest : List Char}

/-- A search from a word starts at a boundary and takes a candidate before anything else. -/
theorem fromWord_eq (behind : List Char → Finder Mention) (p : Place) : fromWord behind p =
    if p.isBoundary then (candidate p).flatMap fun found => behind found.1 found.2 else [] := by
  rw [fromWord, bind_apply, boundary]
  split
  · exact List.flatMap_singleton _ _
  · rfl

/-- Where no word begins, nothing is found. -/
theorem fromWord_eq_nil (behind : List Char → Finder Mention)
    (h : p.before.any isWord = true ∨ EndsRun isWord p.rest) : fromWord behind p = [] := by
  rw [fromWord_eq]
  split
  · rename_i hboundary
    have hends : EndsRun isWord p.rest :=
      h.elim (fun hbefore => (Place.isBoundary_of_before hbefore).1 hboundary) id
    rw [List.flatMap_eq_nil_iff]
    intro found hfound
    -- A candidate would start with a character of a word.
    rcases mem_candidate_iff.1 hfound with ⟨hword, htext, _⟩
    rcases List.exists_cons_of_ne_nil (ne_nil_of_isCandidate hword) with ⟨c, more, hcons⟩
    have hno := hends c (by rw [htext, hcons]; rfl)
    rw [isWord_of_isCandidate hword c (by rw [hcons]; exact List.mem_cons_self)] at hno
    cases hno
  · rfl

/-- At the beginning of a word, only the whole word can be the candidate of a match. -/
theorem fromWord_head? (hkeeps : KeepsWords behind) (hne : run ≠ [])
    (hrun : ∀ c ∈ run, isWord c = true) (hrest : EndsRun isWord rest)
    (hbefore : before.any isWord = false) : (fromWord behind ⟨before, run ++ rest⟩).head? =
      if isCandidate run then (behind run ⟨run.getLast?, rest⟩).head? else none := by
  -- A candidate that is cut off inside the word leads to no match, so only the whole word does.
  have honly : ∀ found ∈ candidate ⟨before, run ++ rest⟩, behind found.1 found.2 ≠ [] →
      found = (run, ⟨run.getLast?, rest⟩) := by
    rintro ⟨word, last, more⟩ hfound hsome
    rcases mem_candidate_iff.1 hfound with ⟨hword, htext, hlast⟩
    dsimp only at hword htext hlast
    have hall := isWord_of_isCandidate hword
    have hends : EndsRun isWord more := hkeeps word _
      (hlast ▸ any_getLast? (ne_nil_of_isCandidate hword) hall) hsome
    rcases word_unique hrun hrest hall hends htext with ⟨rfl, rfl⟩
    rw [hlast]
  have hboundary : Place.isBoundary ⟨before, run ++ rest⟩ = true :=
    (Place.isBoundary_of_word hne hrun rfl).2 hbefore
  rw [fromWord_eq, if_pos hboundary]
  by_cases hcandidate : isCandidate run = true
  · have hmem : (run, ⟨run.getLast?, rest⟩) ∈ candidate ⟨before, run ++ rest⟩ :=
      mem_candidate_iff.2 ⟨hcandidate, rfl, rfl⟩
    rw [if_pos hcandidate, head?_flatMap_of_only hmem honly]
  · rw [if_neg hcandidate, List.head?_eq_none_iff, List.flatMap_eq_nil_iff]
    intro found hfound
    by_contra hsome
    have hword := (mem_candidate_iff.1 hfound).1
    rw [honly found hfound hsome] at hword
    exact hcandidate hword

/-- A match leaves less text than there was, since its candidate is not empty. -/
theorem rest_lt_of_mem_fromWord
    (hbehind : ∀ first q, ∀ found ∈ behind first q, found.2.rest.length ≤ q.rest.length)
    {found : Mention × Place} (h : found ∈ fromWord behind p) :
    found.2.rest.length < p.rest.length := by
  rw [fromWord_eq] at h
  split at h
  · rcases List.mem_flatMap.1 h with ⟨⟨word, q⟩, hword, hfound⟩
    rcases mem_candidate_iff.1 hword with ⟨hcandidate, htext, _⟩
    have hle := hbehind word q found hfound
    have hpos := List.length_pos_iff.2 (ne_nil_of_isCandidate hcandidate)
    rw [htext, List.length_append]
    dsimp only at hpos ⊢
    omega
  · exact absurd h List.not_mem_nil

end FromWord

section Behind

variable {first : List Char}

theorem length_le_of_mem_rangeBehind {found : Mention × Place} (h : found ∈ rangeBehind first p) :
    found.2.rest.length ≤ p.rest.length := by
  rcases mem_rangeBehind_iff.1 h with ⟨last, rest, _, htext, _, rfl⟩
  rw [htext, List.length_cons, List.length_append]
  dsimp only
  omega

theorem length_le_of_mem_mentionBehind {found : Mention × Place}
    (h : found ∈ mentionBehind first p) : found.2.rest.length ≤ p.rest.length := by
  rw [mentionBehind_eq, List.mem_append] at h
  rcases h with h | h
  · exact length_le_of_mem_rangeBehind h
  · split at h
    · rw [List.mem_singleton.1 h]
    · exact absurd h List.not_mem_nil

/-- A colon ends the word in front of it. -/
theorem keepsWords_rangeBehind : KeepsWords rangeBehind := by
  intro first q _ hsome
  rcases List.exists_mem_of_ne_nil _ hsome with ⟨found, hfound⟩
  rcases mem_rangeBehind_iff.1 hfound with ⟨last, rest, _, htext, _, _⟩
  rw [htext]
  exact endsRun_cons (by decide)

/-- A mention goes on with a colon or stops at a boundary, and both end the word. -/
theorem keepsWords_mentionBehind : KeepsWords mentionBehind := by
  intro first q hbefore hsome
  rw [mentionBehind_eq] at hsome
  by_cases hboundary : q.isBoundary = true
  · exact (Place.isBoundary_of_before hbefore).1 hboundary
  · rw [if_neg hboundary, List.append_nil] at hsome
    exact keepsWords_rangeBehind first q hbefore hsome

end Behind

/-- The pattern for candidates that may have a partner. -/
def mentionSearch : Search Mention where
  find := fromWord mentionBehind
  lt_of_mem _ _ h := rest_lt_of_mem_fromWord (fun _ _ _ => length_le_of_mem_mentionBehind) h

/-- The pattern for two candidates with a colon between them. -/
def rangeSearch : Search Mention where
  find := fromWord rangeBehind
  lt_of_mem _ _ h := rest_lt_of_mem_fromWord (fun _ _ _ => length_le_of_mem_rangeBehind) h

section Partners

variable {before : Option Char} {first last rest behind : List Char}

/-- With a partner behind the first corner, the first match is the range up to where the partner
    ends. -/
theorem rangeBehind_head? (h : IsPartner rest last behind) :
    (rangeBehind first ⟨before, rest⟩).head? =
      some (.range first last, ⟨last.getLast?, behind⟩) := by
  rcases h with ⟨rfl, hlast, hbehind⟩
  refine head?_eq_some_of_only (mem_rangeBehind_iff.2 ⟨last, behind, hlast, rfl, hbehind, rfl⟩) ?_
  -- Shorter candidates do not end their word, so there is no other match.
  intro found hfound
  rcases mem_rangeBehind_iff.1 hfound with ⟨word, more, hword, htext, hmore, rfl⟩
  rcases word_unique (isWord_of_isCandidate hlast) hbehind (isWord_of_isCandidate hword) hmore
    (List.cons.inj htext).2 with ⟨rfl, rfl⟩
  rfl

/-- Without a partner there is no range. -/
theorem rangeBehind_eq_nil (h : ∀ last behind, ¬ IsPartner rest last behind) :
    rangeBehind first ⟨before, rest⟩ = [] := by
  rw [List.eq_nil_iff_forall_not_mem]
  intro found hfound
  rcases mem_rangeBehind_iff.1 hfound with ⟨last, behind, hlast, htext, hbehind, _⟩
  exact h last behind ⟨htext, hlast, hbehind⟩

end Partners

/-- Whether a mention is a range. -/
def Mention.isRange : Mention → Bool
  | .cell _ => false
  | .range _ _ => true

/-- The search for mentions finds what the scan over words finds. -/
theorem mentionSearch_all (text : List Char) : mentionSearch.all text = mentions text := by
  -- No match begins inside a word or at a sign, so only words have to be looked at.
  have hstarts : mentionSearch.StartsWords := fun p => fromWord_eq_nil mentionBehind
  refine hstarts.all_eq mentions_nil (fun c rest hc => mentions_mark hc) ?_ text
  intro before run rest hne hrun hrest hbefore
  have hhead := fromWord_head? keepsWords_mentionBehind hne hrun hrest hbefore
  by_cases hcandidate : isCandidate run = true
  · rw [if_pos hcandidate, mentionBehind_eq, List.head?_append] at hhead
    right
    -- The longer match is tried first, so a partner makes a range.
    by_cases hpartner : ∃ last behind, IsPartner rest last behind
    · rcases hpartner with ⟨last, behind, hpartner⟩
      rw [rangeBehind_head? hpartner, Option.some_or] at hhead
      refine ⟨_, hhead, hpartner.2.2, ?_⟩
      rw [hpartner.1, mentions_range hrun (isWord_of_isCandidate hpartner.2.1) hpartner.2.2
        hcandidate hpartner.2.1]
    · have halone : ∀ last behind, ¬ IsPartner rest last behind :=
        fun last behind h => hpartner ⟨last, behind, h⟩
      rw [rangeBehind_eq_nil halone, List.head?_nil, Option.none_or,
        if_pos ((isBoundary_iff_of_isCandidate hcandidate).2 hrest)] at hhead
      exact ⟨_, hhead, hrest, mentions_cell hrun hrest hcandidate halone⟩
  · rw [if_neg hcandidate] at hhead
    exact Or.inl ⟨hhead, mentions_other hrun (fun _ => hrest) (Bool.eq_false_iff.2 hcandidate)⟩

/-- The search for ranges finds those mentions that are ranges: it skips over single cells, and no
    match of it begins inside one that the scan has taken. -/
theorem rangeSearch_all (text : List Char) :
    rangeSearch.all text = (mentions text).filter Mention.isRange := by
  have hstarts : rangeSearch.StartsWords := fun p => fromWord_eq_nil rangeBehind
  refine hstarts.all_eq (g := fun text => (mentions text).filter Mention.isRange) ?_ ?_ ?_ text
  · rw [mentions_nil, List.filter_nil]
  · exact fun c rest hc => by rw [mentions_mark hc]
  intro before run rest hne hrun hrest hbefore
  have hhead := fromWord_head? keepsWords_rangeBehind hne hrun hrest hbefore
  by_cases hcandidate : isCandidate run = true
  · rw [if_pos hcandidate] at hhead
    by_cases hpartner : ∃ last behind, IsPartner rest last behind
    · rcases hpartner with ⟨last, behind, hpartner⟩
      rw [rangeBehind_head? hpartner] at hhead
      refine Or.inr ⟨_, hhead, hpartner.2.2, ?_⟩
      rw [hpartner.1, mentions_range hrun (isWord_of_isCandidate hpartner.2.1) hpartner.2.2
        hcandidate hpartner.2.1]
      rfl
    · have halone : ∀ last behind, ¬ IsPartner rest last behind :=
        fun last behind h => hpartner ⟨last, behind, h⟩
      rw [rangeBehind_eq_nil halone] at hhead
      -- A candidate without a partner is a mention, but none of a range.
      refine Or.inl ⟨hhead, ?_⟩
      rw [mentions_cell hrun hrest hcandidate halone]
      rfl
  · rw [if_neg hcandidate] at hhead
    refine Or.inl ⟨hhead, ?_⟩
    rw [mentions_other hrun (fun _ => hrest) (Bool.eq_false_iff.2 hcandidate)]

/-- The cells that a text mentions are found by the pattern that passes over ranges. -/
theorem cells_eq_search (text : String) : cells text =
    distinct ((mentionSearch.all text.toList).filterMap Mention.cellText?) := by
  rw [mentionSearch_all, cells]

/-- The ranges that a text mentions are found by the pattern for them alone. -/
theorem ranges_eq_search (text : String) : ranges text =
    distinct ((rangeSearch.all text.toList).filterMap Mention.rangeText?) := by
  have hrange : ∀ m : Mention, (if m.isRange then m.rangeText? else none) = m.rangeText? := by
    intro m
    cases m <;> rfl
  rw [rangeSearch_all, List.filterMap_filter, ranges]
  simp only [hrange]

end Reference

end Worksheet
