import Mathlib.Data.List.Chain
import Mathlib.Data.List.TakeWhile
import Worksheet.Proofs.Text.Ascii
import Worksheet.Text.Blank
import Worksheet.Text.Piece

/-!
# Cutting a text

A text is nothing, or starts with a character outside every word, or starts with a maximal word; the
rest is cut in the same way. Two texts with a character between them that belongs to no word are cut
apart, so what stands behind it never changes the words before it.

Blanks belong to no word, and letters and digits of ASCII do.

## Main definitions

* `Text.EndsRun`: A text that does not go on with characters of a kind.
* `Text.IsCut`: Maximal words and the characters between them that make up a text.

## Theorems

* `Text.takeWhile_run`, `Text.dropWhile_run`: A run ends where the kind does.
* `Text.text_cases`, `Text.pieces_induction`: The three forms of a text.
* `Text.isCut_pieces`, `Text.IsCut.eq_pieces`: There is one way to cut a text.
* `Text.pieces_append_mark`: A character outside every word cuts a text in two.
* `Text.trim_append`, `Text.exists_trim`: A trimmed text and the blanks around it.
* `Text.trim_eq_self`, `Text.trim_eq_self_of_ends`, `Text.trim_trim`: Without blanks at its ends, a
  text stays as it is.
* `Text.head?_trim`: Trimming is done on each side apart.
-/

namespace Worksheet

namespace Text

/-- A text that is empty or starts with a character not of the kind. -/
def EndsRun (p : Char → Bool) (rest : List Char) : Prop := ∀ c ∈ rest.head?, p c = false

section Runs

variable {p : Char → Bool} {run rest : List Char}

theorem endsRun_nil : EndsRun p [] := fun c hc => absurd hc (Option.not_mem_none c)

/-- A character of another kind ends a run. -/
theorem endsRun_cons {c : Char} (h : p c = false) : EndsRun p (c :: rest) := by
  intro d hd
  cases hd
  exact h

/-- A run that is dropped as a whole ends there. -/
theorem endsRun_dropWhile (p : Char → Bool) (t : List Char) : EndsRun p (t.dropWhile p) := by
  intro c hc
  have h := List.head?_dropWhile_not p t
  rw [Option.mem_def] at hc
  rw [hc] at h
  exact h

/-- A run is taken as a whole and no further. -/
theorem takeWhile_run (hrun : ∀ c ∈ run, p c = true) (hrest : EndsRun p rest) :
    (run ++ rest).takeWhile p = run := by
  rw [List.takeWhile_append_of_pos hrun]
  cases rest with
  | nil => exact List.append_nil run
  | cons c x =>
      rw [List.takeWhile_cons_of_neg (Bool.eq_false_iff.1 (hrest c rfl)), List.append_nil]

/-- What is left behind it is the rest. -/
theorem dropWhile_run (hrun : ∀ c ∈ run, p c = true) (hrest : EndsRun p rest) :
    (run ++ rest).dropWhile p = rest := by
  rw [List.dropWhile_append_of_pos hrun]
  cases rest with
  | nil => rfl
  | cons c x => exact List.dropWhile_cons_of_neg (Bool.eq_false_iff.1 (hrest c rfl))

/-- Every text is a longest run and what follows it. -/
theorem exists_run (p : Char → Bool) (t : List Char) : ∃ run rest, t = run ++ rest ∧
    (∀ c ∈ run, p c = true) ∧ EndsRun p rest :=
  ⟨t.takeWhile p, t.dropWhile p, List.takeWhile_append_dropWhile.symm,
    fun _ hc => List.mem_takeWhile_imp hc, endsRun_dropWhile p t⟩

end Runs

/-- A code that is found lies in one of the intervals. -/
theorem exists_of_holds {ranges : CodeRanges} {n : Nat} (h : ranges.holds n = true) :
    ∃ r ∈ ranges, r.1 ≤ n ∧ n ≤ r.2 := by
  induction ranges with
  | nil => cases h
  | cons r rest ih =>
      rcases r with ⟨low, high⟩
      rw [CodeRanges.holds] at h
      -- The ranges are in order, so the search stops at the first that lies behind.
      by_cases hlow : n < low
      · rw [if_pos hlow] at h
        cases h
      · rw [if_neg hlow] at h
        by_cases hhigh : n ≤ high
        · exact ⟨(low, high), List.mem_cons_self, Nat.le_of_not_lt hlow, hhigh⟩
        · rw [if_neg hhigh] at h
          rcases ih h with ⟨r, hr, hn⟩
          exact ⟨r, List.mem_cons_of_mem _ hr, hn⟩

/-- ASCII letters and digits are characters of words. -/
theorem isWord_of_isAlphanum {c : Char} (h : c.isAlphanum = true) : isWord c = true := by
  have h0 : '0'.toNat = 48 := rfl
  have h9 : '9'.toNat = 57 := rfl
  -- Letters and digits of ASCII come first in their tables.
  have hcode : (65 ≤ c.toNat ∧ c.toNat ≤ 90 ∨ 97 ≤ c.toNat ∧ c.toNat ≤ 122) ∨
      (48 ≤ c.toNat ∧ c.toNat ≤ 57) := by
    rw [Char.isAlphanum, Bool.or_eq_true, Column.isAlpha_iff, Char.isDigit_iff_toNat, h0, h9] at h
    exact h
  have hletters : ∃ more, alphabeticRanges = (0x41, 0x5A) :: (0x61, 0x7A) :: more := ⟨_, rfl⟩
  have hdigits : ∃ more, joiningRanges = (0x30, 0x39) :: more := ⟨_, rfl⟩
  rcases hletters with ⟨_, hletters⟩
  rcases hdigits with ⟨_, hdigits⟩
  rw [isWord, isAlphabetic, hletters, hdigits, Bool.or_eq_true]
  simp only [CodeRanges.holds]
  rcases hcode with (hcode | hcode) | hcode
  · left
    rw [if_neg (by omega), if_pos hcode.2]
  · left
    rw [if_neg (by omega), if_neg (by omega), if_neg (by omega), if_pos hcode.2]
  · right
    rw [if_neg (by omega), if_pos hcode.2]

/-- No blank is one. The two tables of code points have nothing in common. -/
theorem not_isWord_of_isBlank {c : Char} (h : isBlank c = true) : isWord c = false := by
  -- The blanks are few, so each is looked up in the tables of letters and digits.
  have hall : ∀ r ∈ blankRanges, ∀ n ∈ List.range' r.1 (r.2 - r.1 + 1),
      (alphabeticRanges.holds n || joiningRanges.holds n) = false := by decide +kernel
  rcases exists_of_holds h with ⟨r, hr, hlow, hhigh⟩
  exact hall r hr c.toNat (List.mem_range'_1.2 ⟨hlow, by omega⟩)

theorem not_isBlank_of_isWord {c : Char} (h : isWord c = true) : isBlank c = false := by
  refine Bool.eq_false_iff.2 fun hblank => ?_
  rw [not_isWord_of_isBlank hblank] at h
  cases h

theorem not_isAlphanum_of_not_isWord {c : Char} (h : isWord c = false) :
    c.isAlphanum = false := by
  refine Bool.eq_false_iff.2 fun halphanum => ?_
  rw [isWord_of_isAlphanum halphanum] at h
  cases h

/-- Where a word ends, a run of ASCII letters and digits ends, too. -/
theorem EndsRun.isAlphanum {rest : List Char} (h : EndsRun isWord rest) :
    EndsRun Char.isAlphanum rest := fun c hc => not_isAlphanum_of_not_isWord (h c hc)

theorem pieces_nil : pieces [] = [] := by
  rw [pieces]

/-- A character between words is a piece of its own. -/
theorem pieces_mark {c : Char} {rest : List Char} (h : isWord c = false) :
    pieces (c :: rest) = .mark c :: pieces rest := by
  rw [pieces, if_neg (Bool.eq_false_iff.1 h)]

/-- A word is taken as one piece if nothing behind it goes on with it. -/
theorem pieces_word {run rest : List Char} (hne : run ≠ []) (hrun : ∀ c ∈ run, isWord c = true)
    (hrest : EndsRun isWord rest) : pieces (run ++ rest) = .word run :: pieces rest := by
  cases run with
  | nil => exact absurd rfl hne
  | cons c x =>
      have hx : ∀ d ∈ x, isWord d = true := fun d hd => hrun d (List.mem_cons_of_mem _ hd)
      rw [List.cons_append, pieces, if_pos (hrun c List.mem_cons_self), takeWhile_run hx hrest,
        dropWhile_run hx hrest]

-- The pieces of the rest are pieces of the whole.
theorem mem_pieces_of_mark {piece : Piece} {c : Char} {rest : List Char} (hc : isWord c = false)
    (h : piece ∈ pieces rest) : piece ∈ pieces (c :: rest) := by
  rw [pieces_mark hc]
  exact List.mem_cons_of_mem _ h

theorem mem_pieces_of_word {piece : Piece} {run rest : List Char} (hne : run ≠ [])
    (hrun : ∀ c ∈ run, isWord c = true) (hrest : EndsRun isWord rest)
    (h : piece ∈ pieces rest) : piece ∈ pieces (run ++ rest) := by
  rw [pieces_word hne hrun hrest]
  exact List.mem_cons_of_mem _ h

-- What holds of all words of the rest, and of the word in front of it, holds of all words.
theorem words_of_mark {P : List Char → Prop} {c : Char} {rest : List Char} (hc : isWord c = false)
    (h : ∀ run, .word run ∈ pieces rest → P run) : ∀ run, .word run ∈ pieces (c :: rest) → P run := by
  intro run hrun
  rw [pieces_mark hc] at hrun
  rcases List.mem_cons.1 hrun with hrun | hrun
  · cases hrun
  · exact h run hrun

/-- What holds of a word and of all words behind it holds of all words of a text. -/
theorem words_of_word {P : List Char → Prop} {run rest : List Char}
    (hrun : ∀ c ∈ run, isWord c = true) (hrest : run ≠ [] → EndsRun isWord rest) (hword : P run)
    (h : ∀ other, .word other ∈ pieces rest → P other) :
    ∀ other, .word other ∈ pieces (run ++ rest) → P other := by
  -- An empty run adds no piece.
  by_cases hne : run = []
  · rw [hne]
    exact h
  · intro other hother
    rw [pieces_word hne hrun (hrest hne)] at hother
    rcases List.mem_cons.1 hother with hother | hother
    · cases hother
      exact hword
    · exact h other hother

/-- A text is empty, starts with a character outside every word, or starts with a word. -/
theorem text_cases (t : List Char) : t = [] ∨ (∃ c rest, t = c :: rest ∧ isWord c = false) ∨
    ∃ run rest, t = run ++ rest ∧ run ≠ [] ∧ (∀ c ∈ run, isWord c = true) ∧
      EndsRun isWord rest := by
  cases t with
  | nil => exact Or.inl rfl
  | cons c x =>
      cases hc : isWord c with
      | false => exact Or.inr (Or.inl ⟨c, x, rfl, hc⟩)
      | true =>
          refine Or.inr (Or.inr ⟨(c :: x).takeWhile isWord, (c :: x).dropWhile isWord,
            List.takeWhile_append_dropWhile.symm, ?_, ?_, endsRun_dropWhile _ _⟩)
          · rw [List.takeWhile_cons_of_pos hc]
            exact List.cons_ne_nil _ _
          · exact fun d hd => List.mem_takeWhile_imp hd

/-- Induction on a text by its pieces. -/
theorem pieces_induction {P : List Char → Prop} (nil : P [])
    (mark : ∀ c rest, isWord c = false → P rest → P (c :: rest))
    (word : ∀ run rest, run ≠ [] → (∀ c ∈ run, isWord c = true) → EndsRun isWord rest → P rest →
      P (run ++ rest)) (t : List Char) : P t := by
  induction hlength : t.length using Nat.strongRecOn generalizing t with
  | _ n ih =>
      rcases text_cases t with rfl | ⟨c, rest, rfl, hc⟩ | ⟨run, rest, rfl, hne, hrun, hrest⟩
      · exact nil
      · rw [List.length_cons] at hlength
        exact mark c rest hc (ih rest.length (by omega) rest rfl)
      · have hpos := List.length_pos_iff.2 hne
        rw [List.length_append] at hlength
        exact word run rest hne hrun hrest (ih rest.length (by omega) rest rfl)

/-- The words among the pieces are runs of characters of words. -/
theorem word_of_mem_pieces {t run : List Char} (h : .word run ∈ pieces t) :
    run ≠ [] ∧ ∀ c ∈ run, isWord c = true := by
  induction t using pieces_induction with
  | nil =>
      rw [pieces_nil] at h
      cases h
  | mark c rest hc ih =>
      rw [pieces_mark hc] at h
      rcases List.mem_cons.1 h with h | h
      · cases h
      · exact ih h
  | word found rest hne hrun hrest ih =>
      rw [pieces_word hne hrun hrest] at h
      rcases List.mem_cons.1 h with h | h
      · cases h
        exact ⟨hne, hrun⟩
      · exact ih h

/-- Pieces make up a text: maximal runs of word characters, and the characters between them. -/
structure IsCut (ps : List Piece) (text : List Char) : Prop where
  /-- Nothing is missing and nothing is added. -/
  chars : ps.flatMap Piece.chars = text
  /-- The words are runs of word characters. -/
  word : ∀ run, .word run ∈ ps → run ≠ [] ∧ ∀ c ∈ run, isWord c = true
  /-- What stands between them belongs to no word. -/
  mark : ∀ c, .mark c ∈ ps → isWord c = false
  /-- No word follows right behind another one. -/
  apart : ps.IsChain fun p q => ∀ run, p = .word run → ∃ c, q = .mark c

/-- The pieces are a division of the text into maximal words and the characters between them. -/
theorem isCut_pieces (t : List Char) : IsCut (pieces t) t := by
  refine ⟨flatMap_chars_pieces t, fun _ => word_of_mem_pieces, ?_, ?_⟩
  · intro d hd
    induction t using pieces_induction with
    | nil =>
        rw [pieces_nil] at hd
        exact absurd hd List.not_mem_nil
    | mark c rest hc ih =>
        rw [pieces_mark hc] at hd
        rcases List.mem_cons.1 hd with hd | hd
        · cases hd
          exact hc
        · exact ih hd
    | word run rest hne hrun hrest ih =>
        rw [pieces_word hne hrun hrest] at hd
        rcases List.mem_cons.1 hd with hd | hd
        · cases hd
        · exact ih hd
  · induction t using pieces_induction with
    | nil =>
        rw [pieces_nil]
        exact List.IsChain.nil
    | mark c rest hc ih =>
        rw [pieces_mark hc, List.isChain_cons]
        exact ⟨fun _ _ _ hrun => Piece.noConfusion hrun, ih⟩
    | word run rest hne hrun hrest ih =>
        rw [pieces_word hne hrun hrest, List.isChain_cons]
        refine ⟨fun q hq _ _ => ?_, ih⟩
        -- The rest does not start with a word character, so its first piece is a mark.
        cases rest with
        | nil =>
            rw [pieces_nil] at hq
            cases hq
        | cons c x =>
            rw [pieces_mark (hrest c rfl), List.head?_cons, Option.mem_def] at hq
            cases hq
            exact ⟨c, rfl⟩

/-- There is one way to cut a text. -/
theorem IsCut.eq_pieces {ps : List Piece} {t : List Char} (h : IsCut ps t) : ps = pieces t := by
  induction ps generalizing t with
  | nil =>
      rw [← h.chars, List.flatMap_nil, pieces_nil]
  | cons p ps ih =>
      rcases h with ⟨hchars, hword, hmark, hapart⟩
      rw [List.isChain_cons] at hapart
      have hrest := ih ⟨rfl, fun run hrun => hword run (List.mem_cons_of_mem p hrun),
        fun c hc => hmark c (List.mem_cons_of_mem p hc), hapart.2⟩
      rw [← hchars, List.flatMap_cons]
      cases p with
      | mark c =>
          change _ = pieces (c :: ps.flatMap Piece.chars)
          rw [pieces_mark (hmark c List.mem_cons_self), ← hrest]
      | word run =>
          rcases hword run List.mem_cons_self with ⟨hne, hrun⟩
          -- The piece behind a word is a sign, so the word ends there.
          have hends : EndsRun isWord (ps.flatMap Piece.chars) := by
            cases ps with
            | nil => exact endsRun_nil
            | cons q qs =>
                rcases hapart.1 q rfl run rfl with ⟨c, rfl⟩
                exact endsRun_cons (hmark c (List.mem_cons_of_mem _ List.mem_cons_self))
          change _ = pieces (run ++ ps.flatMap Piece.chars)
          rw [pieces_word hne hrun hends, ← hrest]

/-- A character outside every word cuts a text in two. -/
theorem pieces_append_mark {c : Char} (h : isWord c = false) (before rest : List Char) :
    pieces (before ++ c :: rest) = pieces before ++ .mark c :: pieces rest := by
  induction before using pieces_induction with
  | nil => rw [pieces_nil, List.nil_append, List.nil_append, pieces_mark h]
  | mark d before hd ih =>
      rw [List.cons_append, pieces_mark hd, pieces_mark hd, ih, List.cons_append]
  | word run before hne hrun hbefore ih =>
      -- The word ends where it ended before, or at the added sign.
      have hends : EndsRun isWord (before ++ c :: rest) := by
        cases before with
        | nil => exact endsRun_cons h
        | cons d x => exact endsRun_cons (hbefore d rfl)
      rw [List.append_assoc, pieces_word hne hrun hends, pieces_word hne hrun hbefore, ih,
        List.cons_append]

/-- Characters between words do not change the pieces in front of them. -/
theorem pieces_append_marks {marks : List Char} (h : ∀ c ∈ marks, isWord c = false)
    (before : List Char) : pieces (before ++ marks) = pieces before ++ marks.map .mark := by
  induction marks generalizing before with
  | nil => rw [List.append_nil, List.map_nil, List.append_nil]
  | cons c rest ih =>
      have hrest := ih (fun d hd => h d (List.mem_cons_of_mem _ hd)) []
      rw [List.nil_append, pieces_nil, List.nil_append] at hrest
      rw [pieces_append_mark (h c List.mem_cons_self), hrest, List.map_cons]

/-- Nor those behind them. -/
theorem pieces_marks_append {marks : List Char} (h : ∀ c ∈ marks, isWord c = false)
    (rest : List Char) : pieces (marks ++ rest) = marks.map .mark ++ pieces rest := by
  induction marks with
  | nil => rfl
  | cons c more ih =>
      rw [List.cons_append, pieces_mark (h c List.mem_cons_self),
        ih fun d hd => h d (List.mem_cons_of_mem _ hd), List.map_cons, List.cons_append]

/-- A text with no blank at either end is what trimming leaves of it among blanks. -/
theorem trim_append {before core behind : List Char} (hbefore : ∀ c ∈ before, isBlank c = true)
    (hbehind : ∀ c ∈ behind, isBlank c = true) (hhead : ∀ c ∈ core.head?, isBlank c = false)
    (hlast : ∀ c ∈ core.getLast?, isBlank c = false) :
    trim (before ++ core ++ behind) = core := by
  unfold trim trimStart
  cases hcore : core with
  | nil =>
      -- Nothing but blanks, all of which go.
      have hall : ∀ c ∈ before ++ [] ++ behind, isBlank c = true := by
        intro c hc
        rw [List.append_nil] at hc
        rcases List.mem_append.1 hc with hc | hc
        · exact hbefore c hc
        · exact hbehind c hc
      rw [List.dropWhile_eq_nil_iff.2 hall]
      rfl
  | cons c x =>
      rw [← hcore]
      have hends : EndsRun isBlank (core ++ behind) := by
        rw [hcore]
        exact endsRun_cons (hhead c (by rw [hcore]; rfl))
      have hends' : EndsRun isBlank core.reverse := by
        intro d hd
        rw [List.head?_reverse] at hd
        exact hlast d hd
      rw [List.append_assoc, dropWhile_run hbefore hends, List.reverse_append,
        dropWhile_run (fun d hd => hbehind d (List.mem_reverse.1 hd)) hends', List.reverse_reverse]

/-- A text is what trimming leaves of it, with blanks around it. -/
theorem exists_trim (t : List Char) : ∃ before behind, t = before ++ trim t ++ behind ∧
    (∀ c ∈ before, isBlank c = true) ∧ (∀ c ∈ behind, isBlank c = true) ∧
    (∀ c ∈ (trim t).head?, isBlank c = false) ∧ (∀ c ∈ (trim t).getLast?, isBlank c = false) := by
  -- The blanks in front are cut off first, and those behind from what is left.
  have hfront : t.takeWhile isBlank ++ t.dropWhile isBlank = t := List.takeWhile_append_dropWhile
  have hback : trim t ++ ((t.dropWhile isBlank).reverse.takeWhile isBlank).reverse =
      t.dropWhile isBlank := by
    unfold trim trimStart
    rw [← List.reverse_append, List.takeWhile_append_dropWhile, List.reverse_reverse]
  refine ⟨t.takeWhile isBlank, ((t.dropWhile isBlank).reverse.takeWhile isBlank).reverse, ?_,
    fun c hc => List.mem_takeWhile_imp hc,
    fun c hc => List.mem_takeWhile_imp (List.mem_reverse.1 hc), ?_, ?_⟩
  · rw [List.append_assoc, hback, hfront]
  · intro c hc
    refine endsRun_dropWhile isBlank t c ?_
    rw [← hback, Option.mem_def, List.head?_append, hc, Option.some_or]
  · intro c hc
    unfold trim trimStart at hc
    rw [List.getLast?_reverse] at hc
    exact endsRun_dropWhile isBlank _ c hc

/-- A text without blanks at its ends is not changed by trimming. -/
theorem trim_eq_self {t : List Char} (hhead : ∀ c ∈ t.head?, isBlank c = false)
    (hlast : ∀ c ∈ t.getLast?, isBlank c = false) : trim t = t := by
  have hnone : ∀ c ∈ ([] : List Char), isBlank c = true := List.forall_mem_nil _
  have htrim := trim_append hnone hnone hhead hlast
  rw [List.nil_append, List.append_nil] at htrim
  exact htrim

theorem trim_eq_self_of_ends {c d : Char} (hc : isBlank c = false) (hd : isBlank d = false)
    (t : List Char) : trim (c :: (t ++ [d])) = c :: (t ++ [d]) := by
  refine trim_eq_self (fun e he => ?_) fun e he => ?_
  · cases he
    exact hc
  · rw [← List.cons_append, List.getLast?_concat] at he
    cases he
    exact hd

/-- Trimming once is enough. -/
theorem trim_trim (t : List Char) : trim (trim t) = trim t := by
  rcases exists_trim t with ⟨_, _, _, _, _, hhead, hlast⟩
  exact trim_eq_self hhead hlast

-- Blanks behind a text do not change what it starts with.
theorem head?_trim (t : List Char) : (trim t).head? = (trimStart t).head? := by
  rcases exists_trim t with ⟨before, behind, ht, hbefore, hbehind, hhead, _⟩
  generalize trim t = core at *
  subst ht
  cases core with
  | nil =>
      have hall : ∀ c ∈ before ++ [] ++ behind, isBlank c = true := by
        intro c hc
        rw [List.append_nil] at hc
        exact (List.mem_append.1 hc).elim (hbefore c) (hbehind c)
      rw [trimStart, List.dropWhile_eq_nil_iff.2 hall]
  | cons c x =>
      have hends : EndsRun isBlank (c :: x ++ behind) := endsRun_cons (hhead c rfl)
      rw [trimStart, List.append_assoc, dropWhile_run hbefore hends]
      rfl

end Text

end Worksheet
