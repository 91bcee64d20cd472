import Worksheet.Proofs.Text.Pieces

/-!
# Searching a text for a pattern

A pattern is a list of steps: to stand where a word starts or ends, or to take a run of characters
of a kind. It is matched by trying. A run is taken as long as it can be, and given back one character
at a time as long as the later steps do not match behind it. A text is searched from left to right:
the first match at the first place that has one counts, and the search goes on behind it.

None of this speaks of words as pieces of a text. But if all matches of a pattern are whole words,
then what is tried first does not matter, for a word that matches does so in one way, and the search
visits the pieces of the text one after the other.

## Main definitions

* `Text.Place`, `Text.Place.isBoundary`: A place in a text, and whether a word starts or ends there.
* `Text.Step`, `Text.Pattern`: The steps of a pattern, one of which takes something.
* `Text.Step.matches`, `Text.Step.matchesAll`: All matches at a place, those tried first in front.
* `Text.Piece.replace`: What stands for a piece of a text when words are replaced.
* `Text.Pattern.first?`: The match at a place.
* `Text.Pattern.replaceAll?`: A text with all matches replaced.
* `Text.Pattern.FindsWords`: The matches of a pattern are the words of some kind.

## Theorems

* `Text.mem_runMatches_iff`: Which runs are tried.
* `Text.mem_matchesAll_boundary_iff`, `Text.mem_matchesAll_run_iff`: What a first step adds.
* `Text.Pattern.FindsWords.first?_of_word`: A pattern that finds words matches in one way.
* `Text.Pattern.FindsWords.replaceAll?_eq`: What is replaced by a pattern that finds words.
-/

namespace Worksheet

namespace Text

/-- A place in a text. Of what stands in front of it only the last character matters. -/
@[ext]
structure Place where
  /-- The character in front of the place, if there is one. -/
  before : Option Char
  /-- The text behind the place. -/
  rest : List Char

/-- Whether a word starts or ends at a place. -/
def Place.isBoundary (p : Place) : Bool := p.before.any isWord != p.rest.head?.any isWord

/-- A match: the characters taken, and the place behind them. -/
@[ext]
structure Match where
  /-- The characters taken. -/
  taken : List Char
  /-- The place behind them. -/
  place : Place

/-- A match with one more character in front. -/
def Match.cons (c : Char) (m : Match) : Match := ⟨c :: m.taken, m.place⟩

/-- A match and another one behind it. -/
def Match.append (m later : Match) : Match := ⟨m.taken ++ later.taken, later.place⟩

/-- One step of a pattern. -/
inductive Step where
  /-- A word starts or ends here. -/
  | boundary
  /-- One or more characters of a kind. -/
  | run (kind : Char → Bool)

/-- All runs of characters of a kind that a text starts with, longer ones in front. -/
def runMatches (kind : Char → Bool) : List Char → List Match
  | [] => []
  | c :: rest =>
    if kind c then (runMatches kind rest).map (Match.cons c) ++ [⟨[c], ⟨some c, rest⟩⟩] else []

/-- All matches of a step at a place, those tried first in front. -/
def Step.matches : Step → Place → List Match
  | .boundary, p => if p.isBoundary then [⟨[], p⟩] else []
  | .run kind, p => runMatches kind p.rest

/-- All matches of some steps at a place, those tried first in front. Another match of an earlier
    step is tried when all matches of the later ones behind it are used up. -/
def Step.matchesAll : List Step → Place → List Match
  | [], p => [⟨[], p⟩]
  | s :: more, p => (s.matches p).flatMap fun m => (matchesAll more m.place).map m.append

/-- A list whose members are all the same has that one in front. -/
theorem head?_eq_some_of_only {α : Type} {l : List α} {a : α} (hmem : a ∈ l)
    (honly : ∀ b ∈ l, b = a) : l.head? = some a := by
  cases l with
  | nil => exact absurd hmem List.not_mem_nil
  | cons b rest => rw [List.head?_cons, honly b List.mem_cons_self]

/-- A text starts with one word at most. -/
theorem word_unique {run taken rest behind : List Char} (hrun : ∀ c ∈ run, isWord c = true)
    (hrest : EndsRun isWord rest) (htaken : ∀ c ∈ taken, isWord c = true)
    (hbehind : EndsRun isWord behind) (htext : run ++ rest = taken ++ behind) :
    taken = run ∧ behind = rest := by
  have hsame : run = taken := by
    rw [← takeWhile_run hrun hrest, htext, takeWhile_run htaken hbehind]
  subst hsame
  exact ⟨rfl, (List.append_cancel_left htext).symm⟩

-- A word does not stand behind a character of a word.
theorem not_isWord_before {before : Option Char} {run rest : List Char} (hne : run ≠ [])
    (hrun : ∀ c ∈ run, isWord c = true)
    (hplace : before.any isWord = true → EndsRun isWord (run ++ rest)) :
    before.any isWord = false := by
  rcases List.exists_cons_of_ne_nil hne with ⟨c, more, rfl⟩
  refine Bool.eq_false_iff.2 fun hword => ?_
  have hno := hplace hword c rfl
  rw [hrun c List.mem_cons_self] at hno
  cases hno

/-- The last character of a run of word characters is a word character. -/
theorem any_getLast? {run : List Char} (hne : run ≠ []) (hrun : ∀ c ∈ run, isWord c = true) :
    run.getLast?.any isWord = true := by
  rw [List.getLast?_eq_some_getLast hne, Option.any_some]
  exact hrun _ (List.getLast_mem hne)

/-- Behind a word character there is a boundary exactly where the word ends. -/
theorem Place.isBoundary_of_before {p : Place} (h : p.before.any isWord = true) :
    p.isBoundary = true ↔ EndsRun isWord p.rest := by
  rw [isBoundary, h]
  cases hrest : p.rest.head? with
  | none =>
      -- At the end of the text there is a boundary, and the word ends.
      refine iff_of_true rfl fun c hc => ?_
      rw [hrest] at hc
      cases hc
  | some c =>
      rw [Option.any_some]
      constructor
      · intro hne d hd
        rw [hrest] at hd
        cases hd
        simpa using hne
      · intro hends
        rw [hends c hrest]
        rfl

/-- In front of a word there is a boundary exactly where no word character stands before it. -/
theorem Place.isBoundary_of_word {p : Place} {run rest : List Char} (hne : run ≠ [])
    (hrun : ∀ c ∈ run, isWord c = true) (htext : p.rest = run ++ rest) :
    p.isBoundary = true ↔ p.before.any isWord = false := by
  rcases List.exists_cons_of_ne_nil hne with ⟨c, more, rfl⟩
  rw [isBoundary, htext, List.cons_append, List.head?_cons, Option.any_some,
    hrun c List.mem_cons_self]
  cases p.before.any isWord
  · exact iff_of_true rfl rfl
  · exact iff_of_false (by decide) (by decide)

/-- What stands for a piece of a text when the words of some kind are replaced. -/
def Piece.replace (wanted : List Char → Bool) (g : List Char → List Char) : Piece → List Char
  | .word run => if wanted run then g run else run
  | .mark c => [c]

/-- A pattern. It never matches without taking anything. -/
structure Pattern where
  /-- Its steps. -/
  steps : List Step
  /-- One of them takes something. -/
  takes : ∃ kind, .run kind ∈ steps

section Matches

variable {kind : Char → Bool} {text : List Char} {m : Match} {s : Step} {more : List Step}
  {p : Place}

/-- A run that is tried takes the first character alone, or takes it in front of one that is tried
    on the rest. -/
theorem mem_runMatches_cons_iff {c : Char} {rest : List Char} :
    m ∈ runMatches kind (c :: rest) ↔ kind c = true ∧
      ((∃ later ∈ runMatches kind rest, later.cons c = m) ∨ m = ⟨[c], ⟨some c, rest⟩⟩) := by
  rw [runMatches]
  by_cases hc : kind c = true
  · rw [if_pos hc, List.mem_append, List.mem_map, List.mem_singleton, and_iff_right hc]
  · rw [if_neg hc]
    exact iff_of_false List.not_mem_nil fun h => hc h.1

/-- The ways to match a run are the beginnings of the text that are not empty and are of the kind;
    the place behind one of them remembers the last character taken. -/
theorem mem_runMatches_iff : m ∈ runMatches kind text ↔ m.taken ≠ [] ∧
    (∀ c ∈ m.taken, kind c = true) ∧ text = m.taken ++ m.place.rest ∧
      m.place.before = m.taken.getLast? := by
  induction text generalizing m with
  | nil =>
      -- An empty text has no beginning that is not empty.
      refine iff_of_false List.not_mem_nil ?_
      rintro ⟨hne, -, htext, -⟩
      exact hne (List.append_eq_nil_iff.1 htext.symm).1
  | cons c rest ih =>
      rw [mem_runMatches_cons_iff]
      constructor
      · rintro ⟨hc, ⟨later, hlater, rfl⟩ | rfl⟩
        · rcases ih.1 hlater with ⟨hne, hkind, htext, hbefore⟩
          refine ⟨List.cons_ne_nil _ _, List.forall_mem_cons.2 ⟨hc, hkind⟩,
            congrArg (c :: ·) htext, ?_⟩
          -- The place behind is the same, and so is the last character taken.
          rw [Match.cons, hbefore, List.getLast?_cons_of_ne_nil hne]
        · exact ⟨List.cons_ne_nil _ _, List.forall_mem_singleton.2 hc, rfl, rfl⟩
      · rcases m with ⟨_ | ⟨d, more⟩, before, behind⟩
        · exact fun h => absurd rfl h.1
        rintro ⟨-, hkind, htext, hbefore⟩
        rcases List.forall_mem_cons.1 hkind with ⟨hd, hmore⟩
        rcases List.cons.inj htext with ⟨rfl, hrest⟩
        refine ⟨hd, ?_⟩
        -- Whether anything is taken behind the first character tells which of the two it is.
        cases more with
        | nil =>
            right
            dsimp only at hbefore hrest
            rw [hbefore, hrest]
            rfl
        | cons e more =>
            left
            refine ⟨⟨e :: more, before, behind⟩, ih.2 ⟨List.cons_ne_nil _ _, hmore, hrest, ?_⟩, rfl⟩
            rw [← List.getLast?_cons_cons]
            exact hbefore

theorem mem_matches_boundary_iff :
    m ∈ Step.boundary.matches p ↔ p.isBoundary = true ∧ m = ⟨[], p⟩ := by
  rw [Step.matches]
  by_cases h : p.isBoundary = true
  · rw [if_pos h, List.mem_singleton, and_iff_right h]
  · rw [if_neg h]
    exact iff_of_false List.not_mem_nil fun hm => h hm.1

theorem mem_matchesAll_nil_iff : m ∈ Step.matchesAll [] p ↔ m = ⟨[], p⟩ := List.mem_singleton

/-- A sequence of steps is matched by matching its first step and the others from where that one
    stopped. -/
theorem mem_matchesAll_cons_iff : m ∈ Step.matchesAll (s :: more) p ↔
    ∃ first ∈ s.matches p, ∃ later ∈ Step.matchesAll more first.place, first.append later = m := by
  rw [Step.matchesAll, List.mem_flatMap]
  simp only [List.mem_map]

/-- A boundary takes nothing and only asks for its place. -/
theorem mem_matchesAll_boundary_iff :
    m ∈ Step.matchesAll (.boundary :: more) p ↔
      p.isBoundary = true ∧ m ∈ Step.matchesAll more p := by
  rw [mem_matchesAll_cons_iff]
  simp only [mem_matches_boundary_iff]
  constructor
  · rintro ⟨first, ⟨hboundary, rfl⟩, later, hlater, rfl⟩
    exact ⟨hboundary, hlater⟩
  · rintro ⟨hboundary, hm⟩
    exact ⟨_, ⟨hboundary, rfl⟩, m, hm, rfl⟩

/-- A run in front of other steps may take any beginning of its kind from which the others go on. -/
theorem mem_matchesAll_run_iff :
    m ∈ Step.matchesAll (.run kind :: more) p ↔ ∃ run later,
      (run ≠ [] ∧ ∀ c ∈ run, kind c = true) ∧
        (∃ rest, p.rest = run ++ rest ∧ later ∈ Step.matchesAll more ⟨run.getLast?, rest⟩) ∧
          m = ⟨run ++ later.taken, later.place⟩ := by
  rw [mem_matchesAll_cons_iff]
  constructor
  · rintro ⟨⟨run, last, rest⟩, hfirst, later, hlater, rfl⟩
    rcases mem_runMatches_iff.1 hfirst with ⟨hne, hrun, htext, hlast⟩
    dsimp only at hne hrun htext hlast
    rw [hlast] at hlater
    exact ⟨run, later, ⟨hne, hrun⟩, ⟨rest, htext, hlater⟩, rfl⟩
  · rintro ⟨run, later, ⟨hne, hrun⟩, ⟨rest, htext, hlater⟩, rfl⟩
    exact ⟨⟨run, run.getLast?, rest⟩, mem_runMatches_iff.2 ⟨hne, hrun, htext, rfl⟩, later, hlater,
      rfl⟩

/-- What a step takes and what it leaves are together the text in front of it. -/
theorem length_of_mem_matches (h : m ∈ s.matches p) :
    m.place.rest.length + m.taken.length = p.rest.length := by
  cases s with
  | boundary =>
      rw [(mem_matches_boundary_iff.1 h).2]
      rfl
  | run kind =>
      rcases mem_runMatches_iff.1 h with ⟨-, -, htext, -⟩
      rw [htext, List.length_append, Nat.add_comm]

/-- What a pattern takes and what it leaves are together the text in front of it. -/
theorem length_of_mem_matchesAll {steps : List Step} (h : m ∈ Step.matchesAll steps p) :
    m.place.rest.length + m.taken.length = p.rest.length := by
  induction steps generalizing p m with
  | nil =>
      rw [mem_matchesAll_nil_iff.1 h]
      rfl
  | cons s more ih =>
      rcases mem_matchesAll_cons_iff.1 h with ⟨first, hfirst, later, hlater, rfl⟩
      have hstep := length_of_mem_matches hfirst
      have hmore := ih hlater
      change later.place.rest.length + (first.taken ++ later.taken).length = p.rest.length
      rw [List.length_append]
      omega

/-- A pattern with a run in it takes at least one character. -/
theorem taken_ne_nil_of_mem_matchesAll {steps : List Step} (hrun : .run kind ∈ steps)
    (h : m ∈ Step.matchesAll steps p) : m.taken ≠ [] := by
  induction steps generalizing p m with
  | nil => exact absurd hrun List.not_mem_nil
  | cons s more ih =>
      rcases mem_matchesAll_cons_iff.1 h with ⟨first, hfirst, later, hlater, rfl⟩
      intro hnil
      rcases List.append_eq_nil_iff.1 hnil with ⟨hnone, hlast⟩
      rcases List.mem_cons.1 hrun with rfl | hrun
      · exact (mem_runMatches_iff.1 hfirst).1 hnone
      · exact ih hrun hlater hlast

end Matches

namespace Pattern

/-- The match of a pattern at a place, if there is one. -/
def first? (pat : Pattern) (p : Place) : Option Match := (Step.matchesAll pat.steps p).head?

variable {pat : Pattern} {p : Place} {m : Match}

/-- A match of a pattern with a run leaves less text than there was, so a search goes on from a
    shorter text. -/
theorem rest_lt_of_first? (h : pat.first? p = some m) :
    m.place.rest.length < p.rest.length := by
  have hmem := List.mem_of_mem_head? h
  rcases pat.takes with ⟨kind, hrun⟩
  have hpos := List.length_pos_iff.2 (taken_ne_nil_of_mem_matchesAll hrun hmem)
  have hlength := length_of_mem_matchesAll hmem
  omega

/-- The text behind a place with all matches replaced, as long as there is something to replace them
    by. -/
def replaceFrom? (pat : Pattern) (f : List Char → Option (List Char)) (before : Option Char)
    (text : List Char) : Option (List Char) :=
  match _h : pat.first? ⟨before, text⟩ with
  | some m => do
    let replaced ← f m.taken
    let behind ← pat.replaceFrom? f m.place.before m.place.rest
    return replaced ++ behind
  | none =>
    match text with
    | [] => some []
    | c :: rest => (pat.replaceFrom? f (some c) rest).map (c :: ·)
termination_by text.length
decreasing_by
  · exact rest_lt_of_first? _h
  · exact Nat.lt_succ_self _

/-- A text with all matches replaced, as long as there is something to replace them by. -/
def replaceAll? (pat : Pattern) (f : List Char → Option (List Char)) (text : List Char) :
    Option (List Char) := pat.replaceFrom? f none text

variable {f : List Char → Option (List Char)} {before : Option Char} {text : List Char}

/-- Where the pattern matches, the match is replaced and the search goes on behind it. -/
theorem replaceFrom?_of_first? (h : pat.first? ⟨before, text⟩ = some m) :
    pat.replaceFrom? f before text = (f m.taken).bind fun replaced =>
      (pat.replaceFrom? f m.place.before m.place.rest).map (replaced ++ ·) := by
  rw [replaceFrom?]
  split
  · rename_i found hfound
    rw [h, Option.some.injEq] at hfound
    rw [hfound]
    simp only [Option.bind_eq_bind, Option.pure_def, Option.map_eq_bind]
    rfl
  · rename_i hnone
    rw [h] at hnone
    cases hnone

theorem replaceFrom?_nil (h : pat.first? ⟨before, []⟩ = none) :
    pat.replaceFrom? f before [] = some [] := by
  rw [replaceFrom?]
  split
  · rename_i hfound
    rw [h] at hfound
    cases hfound
  · rfl

/-- Where the pattern does not match, one character is kept and the search goes on behind it. -/
theorem replaceFrom?_cons {c : Char} {rest : List Char}
    (h : pat.first? ⟨before, c :: rest⟩ = none) :
    pat.replaceFrom? f before (c :: rest) = (pat.replaceFrom? f (some c) rest).map (c :: ·) := by
  rw [replaceFrom?]
  split
  · rename_i hfound
    rw [h] at hfound
    cases hfound
  · rfl

/-- The matches of a pattern are the words of some kind, each as a whole. -/
def FindsWords (pat : Pattern) (wanted : List Char → Bool) : Prop :=
  ∀ (p : Place) (m : Match), m ∈ Step.matchesAll pat.steps p ↔
    (m.taken ≠ [] ∧ ∀ c ∈ m.taken, isWord c = true) ∧ wanted m.taken = true ∧
      p.before.any isWord = false ∧ p.rest = m.taken ++ m.place.rest ∧
        EndsRun isWord m.place.rest ∧ m.place.before = m.taken.getLast?

variable {wanted : List Char → Bool} {run rest : List Char}

-- Where a word starts, it is the only match that there can be.
theorem FindsWords.first?_of_word (h : pat.FindsWords wanted) (hne : run ≠ [])
    (hrun : ∀ c ∈ run, isWord c = true) (hrest : EndsRun isWord rest)
    (hbefore : before.any isWord = false) : pat.first? ⟨before, run ++ rest⟩ =
      if wanted run then some ⟨run, run.getLast?, rest⟩ else none := by
  -- A match is a word in front of the text, and there is only one.
  have honly : ∀ m ∈ Step.matchesAll pat.steps ⟨before, run ++ rest⟩,
      m = ⟨run, run.getLast?, rest⟩ ∧ wanted run = true := by
    rintro ⟨taken, last, behind⟩ hm
    rcases (h _ _).1 hm with ⟨⟨-, htaken⟩, hwanted, -, htext, hbehind, hlast⟩
    dsimp only at htaken hwanted htext hbehind hlast
    rcases word_unique hrun hrest htaken hbehind htext with ⟨rfl, rfl⟩
    rw [hlast]
    exact ⟨rfl, hwanted⟩
  rw [first?]
  by_cases hwanted : wanted run = true
  · have hmem : ⟨run, run.getLast?, rest⟩ ∈ Step.matchesAll pat.steps ⟨before, run ++ rest⟩ :=
      (h _ _).2 ⟨⟨hne, hrun⟩, hwanted, hbefore, rfl, hrest, rfl⟩
    rw [if_pos hwanted]
    exact head?_eq_some_of_only hmem fun m hm => (honly m hm).1
  · rw [if_neg hwanted, List.head?_eq_none_iff, List.eq_nil_iff_forall_not_mem]
    exact fun m hm => hwanted (honly m hm).2

/-- A pattern that finds words does not match inside a word, nor where no word begins. -/
theorem FindsWords.first?_eq_none (h : pat.FindsWords wanted)
    (hplace : before.any isWord = true ∨ EndsRun isWord text) :
    pat.first? ⟨before, text⟩ = none := by
  rw [first?, List.head?_eq_none_iff, List.eq_nil_iff_forall_not_mem]
  intro m hm
  rcases (h _ _).1 hm with ⟨⟨hne, htaken⟩, -, hbefore, htext, -, -⟩
  dsimp only at hbefore htext
  rcases hplace with hword | hends
  · rw [hbefore] at hword
    cases hword
  · -- A match is taken from the front of the text, so the text starts with a word.
    rcases List.exists_cons_of_ne_nil hne with ⟨c, more, hcons⟩
    rw [hcons] at htext htaken
    have hno := hends c (by rw [htext]; rfl)
    rw [htaken c List.mem_cons_self] at hno
    cases hno

-- Inside a word nothing is found, so the search goes to its end.
theorem FindsWords.replaceFrom?_inside (h : pat.FindsWords wanted)
    (hbefore : before.any isWord = true) (hrun : ∀ c ∈ run, isWord c = true) (rest : List Char) :
    ∃ last, last.any isWord = true ∧ pat.replaceFrom? f before (run ++ rest) =
      (pat.replaceFrom? f last rest).map (run ++ ·) := by
  induction run generalizing before with
  | nil => exact ⟨before, hbefore, by simp⟩
  | cons c more ih =>
      -- In the middle of a word nothing matches, and the character kept is a word character again.
      have hc : (some c).any isWord = true := hrun c List.mem_cons_self
      rcases ih hc (fun d hd => hrun d (List.mem_cons_of_mem c hd)) with ⟨last, hlast, hmore⟩
      refine ⟨last, hlast, ?_⟩
      rw [List.cons_append, replaceFrom?_cons (h.first?_eq_none (Or.inl hbefore)), hmore,
        Option.map_map]
      rfl

/-- A pattern that finds words replaces the words it finds and keeps everything else in place. -/
theorem FindsWords.replaceAll?_eq (h : pat.FindsWords wanted) {g : List Char → List Char}
    (hf : ∀ word, f word = some (g word)) (text : List Char) :
    pat.replaceAll? f text = some ((pieces text).flatMap (Piece.replace wanted g)) := by
  -- The search may stand behind any character, as long as no word is cut in two there.
  suffices hfrom : ∀ before : Option Char, (before.any isWord = true → EndsRun isWord text) →
      pat.replaceFrom? f before text = some ((pieces text).flatMap (Piece.replace wanted g)) from
    hfrom none fun hnone => by cases hnone
  induction text using pieces_induction with
  | nil =>
      intro before _
      rw [replaceFrom?_nil (h.first?_eq_none (Or.inr endsRun_nil)), pieces_nil, List.flatMap_nil]
  | mark c rest hc ih =>
      -- No word begins at a sign, so it is kept.
      intro before _
      have hnot : (some c).any isWord = true → EndsRun isWord rest := fun hword => by
        rw [Option.any_some, hc] at hword
        cases hword
      rw [replaceFrom?_cons (h.first?_eq_none (Or.inr (endsRun_cons hc))), ih _ hnot,
        pieces_mark hc, List.flatMap_cons, Option.map_some]
      rfl
  | word run rest hne hrun hrest ih =>
      intro before hplace
      have hbefore := not_isWord_before hne hrun hplace
      have hfirst := h.first?_of_word hne hrun hrest hbefore
      rw [pieces_word hne hrun hrest, List.flatMap_cons, Piece.replace]
      by_cases hwanted : wanted run = true
      · -- The whole word is the match.
        rw [if_pos hwanted] at hfirst
        rw [replaceFrom?_of_first? hfirst, hf, Option.bind_some, ih _ fun _ => hrest,
          Option.map_some, if_pos hwanted]
      · rw [if_neg hwanted] at hfirst
        -- Nothing matches at the word, nor inside it, so it is kept character by character.
        rw [if_neg hwanted]
        rcases List.exists_cons_of_ne_nil hne with ⟨c, more, rfl⟩
        have hc : (some c).any isWord = true := hrun c List.mem_cons_self
        rcases h.replaceFrom?_inside (f := f) hc
          (fun d hd => hrun d (List.mem_cons_of_mem c hd)) rest with ⟨last, -, hmore⟩
        rw [List.cons_append, replaceFrom?_cons (by rw [← List.cons_append]; exact hfirst), hmore,
          ih last fun _ => hrest]
        rfl

end Pattern

end Text

end Worksheet
