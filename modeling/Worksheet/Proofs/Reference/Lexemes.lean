import Mathlib.Data.List.Forall2
import Worksheet.Proofs.Reference.Words

/-!
# Moving the lexemes of a formula

In a well spelled text each lexeme is made of whole words, so a shift moves the lexemes one by one:
words and pairs become the words and pairs of the shifted runs, and all others stay. In particular
names of functions are no addresses, and a blank or a parenthesis behind a run is there after the
shift if it was before.

## Main definitions

* `Lexeme.isReference`: A word or a pair of words.
* `Shift.MovesLexeme`: A lexeme before and after a shift.

## Theorems

* `Shift.exists_starts_shiftChars`: What the shifted text starts with.
* `Shift.forall₂_movesLexeme`: The lexemes of the shifted text.
-/

namespace Worksheet

open Text

namespace Lexeme

/-- Whether a lexeme is a word or a pair of words. -/
def isReference : Lexeme → Bool
  | word _ | pair _ _ => true
  | _ => false

theorem isReference_ofChar (c : Char) : (ofChar c).isReference = false := by
  unfold ofChar
  cases Operator.ofChar? c with
  | some op => rfl
  | none =>
      dsimp only
      by_cases hopening : c = '('
      · rw [if_pos hopening]
        rfl
      by_cases hclosing : c = ')'
      · rw [if_neg hopening, if_pos hclosing]
        rfl
      by_cases hcomma : c = ','
      · rw [if_neg hopening, if_neg hclosing, if_pos hcomma]
        rfl
      · rw [if_neg hopening, if_neg hclosing, if_neg hcomma]
        rfl

end Lexeme

namespace Shift

variable {s : Shift}

/-- A lexeme before and after a shift that leaves its addresses in the grid. -/
inductive MovesLexeme (s : Shift) : Lexeme → Lexeme → Prop where
  | word {run : List Char} (hkeeps : s.KeepsWord run) :
      MovesLexeme s (.word run) (.word (s.shiftWord run))
  | pair {first second : List Char} (hfirst : ∀ c ∈ first, c.isAlphanum = true)
      (hsecond : ∀ c ∈ second, c.isAlphanum = true) (hkeeps : s.KeepsWord first)
      (hkeeps' : s.KeepsWord second) :
      MovesLexeme s (.pair first second) (.pair (s.shiftWord first) (s.shiftWord second))
  | same {l : Lexeme} (h : l.isReference = false) : MovesLexeme s l l

/-- A word that stays in the grid keeps to letters and digits. -/
theorem isAlphanum_shiftWord {run : List Char} (h : s.KeepsWord run)
    (hrun : ∀ c ∈ run, c.isAlphanum = true) : ∀ c ∈ s.shiftWord run, c.isAlphanum = true := by
  intro c hc
  rcases shiftWord_cases h with ⟨_, hsame⟩ | ⟨_, b, _, _, hmoved⟩
  · rw [hsame] at hc
    exact hrun c hc
  · rw [hmoved] at hc
    exact Address.isAlphanum_chars c hc

/-- Letters alone are moved by no shift. -/
theorem shiftWord_letters {run : List Char} (hrun : ∀ c ∈ run, c.isAlpha = true) :
    s.shiftWord run = run :=
  shiftWord_of_other (Address.ofChars?_of_letters hrun)

theorem shiftWord_digits {run : List Char} (hrun : ∀ c ∈ run, c.isDigit = true) :
    s.shiftWord run = run :=
  shiftWord_of_other (Address.ofChars?_of_digits hrun)

/-- A word that starts with a letter does so after the shift, has a digit if it had one, and calls a
    function only if it did. -/
theorem exists_shiftWord_letter {c : Char} {run : List Char} (halpha : c.isAlpha = true)
    (hrun : ∀ d ∈ run, d.isAlphanum = true) (h : s.KeepsWord (c :: run)) :
    ∃ c' run', s.shiftWord (c :: run) = c' :: run' ∧ c'.isAlpha = true ∧
      (∀ d ∈ run', d.isAlphanum = true) ∧
      (c' :: run').any Char.isDigit = (c :: run).any Char.isDigit ∧
      ∀ rest, Lexeme.callee? (c :: run) rest = none → Lexeme.callee? (c' :: run') rest = none := by
  -- A word that moves is an address before and after, with a letter in front and a digit behind.
  rcases shiftWord_cases h with ⟨_, hsame⟩ | ⟨a, b, ha, _, hmoved⟩
  · exact ⟨c, run, hsame, halpha, hrun, rfl, fun _ hcallee => hcallee⟩
  · rcases List.exists_cons_of_ne_nil b.chars_ne_nil with ⟨c', run', hchars⟩
    have hb := Address.ofChars?_chars b
    rw [hchars] at hb
    have hdigit := Address.any_isDigit_of_ofChars? hb
    refine ⟨c', run', hmoved.trans hchars, Address.isAlpha_head_of_ofChars? hb c' rfl,
      fun d hd => Address.isAlphanum_of_ofChars? hb d (List.mem_cons_of_mem _ hd), ?_,
      fun _ _ => Lexeme.callee?_of_digit hdigit⟩
    rw [hdigit, Address.any_isDigit_of_ofChars? ha]

-- A parenthesis opens behind blanks after the shift if and only if it did before.
theorem head?_trimStart_shiftChars {t : List Char} (h : s.Keeps t) :
    (trimStart (s.shiftChars t)).head? = some '(' ↔ (trimStart t).head? = some '(' := by
  induction t using pieces_induction with
  | nil => rw [shiftChars_nil]
  | mark c rest hc ih =>
      rw [shiftChars_mark hc]
      unfold trimStart at ih ⊢
      by_cases hblank : isBlank c = true
      · rw [List.dropWhile_cons_of_pos hblank, List.dropWhile_cons_of_pos hblank]
        exact ih (h.of_mark hc)
      · rw [List.dropWhile_cons_of_neg hblank, List.dropWhile_cons_of_neg hblank]
        rfl
  | word run rest hne hrun hends _ =>
      -- A word is neither blank nor a parenthesis, before or after.
      have hnot : ∀ {w behind : List Char}, w ≠ [] → (∀ c ∈ w, isWord c = true) →
          (trimStart (w ++ behind)).head? ≠ some '(' := by
        intro w behind hw hword hcontra
        rcases List.exists_cons_of_ne_nil hw with ⟨c, x, rfl⟩
        have hc := hword c List.mem_cons_self
        rw [trimStart, List.cons_append, List.dropWhile_cons_of_neg
          (Bool.eq_false_iff.1 (not_isBlank_of_isWord hc)), List.head?_cons,
          Option.some.injEq] at hcontra
        rw [hcontra] at hc
        revert hc
        decide
      have hkeeps := (h.of_word hne hrun hends).1
      rw [shiftChars_word hne hrun hends]
      exact iff_of_false (hnot (shiftWord_ne_nil hkeeps hne) (isWord_shiftWord hkeeps hrun))
        (hnot hne hrun)

/-- Whether a function is called is the same after a shift of what follows its name. -/
theorem callee?_shiftChars {run rest : List Char} (h : s.Keeps rest) :
    Lexeme.callee? run (s.shiftChars rest) = Lexeme.callee? run rest := by
  refine Option.ext fun f => ?_
  rw [Lexeme.callee?_eq_some_iff, Lexeme.callee?_eq_some_iff, head?_trimStart_shiftChars h]

-- A run of letters and digits is a whole word or nothing.
theorem shiftChars_run {run rest : List Char} (hspelled : WellSpelled (run ++ rest))
    (hkeeps : s.Keeps (run ++ rest)) (hrun : ∀ c ∈ run, c.isAlphanum = true)
    (hends : EndsRun Char.isAlphanum rest) :
    s.shiftChars (run ++ rest) = s.shiftWord run ++ s.shiftChars rest ∧ EndsRun isWord rest ∧
      s.KeepsWord run ∧ WellSpelled rest ∧ s.Keeps rest := by
  have hends' := hspelled.endsRun hrun hends
  have hword : ∀ c ∈ run, isWord c = true := fun c hc => isWord_of_isAlphanum (hrun c hc)
  -- An empty run is no word of its own.
  by_cases hne : run = []
  · subst hne
    refine ⟨?_, hends', fun a ha => ?_, hspelled, hkeeps⟩
    · have hempty : s.shiftWord [] = [] := shiftWord_letters (List.forall_mem_nil _)
      rw [hempty]
      rfl
    · exact absurd rfl (Address.letters_digits_of_ofChars? ha).1
  · rcases hkeeps.of_word hne hword hends' with ⟨hkeepsWord, hkeeps'⟩
    exact ⟨shiftChars_word hne hword hends', hends', hkeepsWord,
      hspelled.of_word hne hword hends', hkeeps'⟩

-- Digits stay, as they are a whole word or none.
theorem shiftChars_digits {run rest : List Char} (hspelled : WellSpelled (run ++ rest))
    (hkeeps : s.Keeps (run ++ rest)) (hrun : ∀ c ∈ run, c.isDigit = true)
    (hends : EndsRun Char.isDigit rest) :
    s.shiftChars (run ++ rest) = run ++ s.shiftChars rest ∧ WellSpelled rest ∧ s.Keeps rest := by
  cases run with
  | nil => exact ⟨rfl, hspelled, hkeeps⟩
  | cons c x =>
      have hword : ∀ d ∈ c :: x, isWord d = true := fun d hd =>
        isWord_of_isAlphanum (isAlphanum_of_isDigit (hrun d hd))
      have hends' := hspelled.endsRun_of_digits hrun hends
      refine ⟨?_, hspelled.of_word (List.cons_ne_nil _ _) hword hends',
        (hkeeps.of_word (List.cons_ne_nil _ _) hword hends').2⟩
      rw [shiftChars_word (List.cons_ne_nil _ _) hword hends', shiftWord_digits hrun]

-- What may follow a number may still follow it after the shift.
theorem head_shiftChars_of_number {rest : List Char} (hspelled : WellSpelled rest)
    (hkeeps : s.Keeps rest)
    (h : ∀ d ∈ rest.head?, d.isDigit = false ∧ d ≠ '.' ∧ d ≠ '%') :
    ∀ d ∈ (s.shiftChars rest).head?, d.isDigit = false ∧ d ≠ '.' ∧ d ≠ '%' := by
  intro d hd
  rcases text_cases rest with rfl | ⟨c, x, rfl, hc⟩ | ⟨run, x, rfl, hne, hrun, hends⟩
  · rw [shiftChars_nil] at hd
    cases hd
  · rw [shiftChars_mark hc] at hd
    exact h d hd
  -- A word that does not start with a digit starts with a letter, and so does its image.
  · rcases List.exists_cons_of_ne_nil hne with ⟨c, y, rfl⟩
    have hword : Spelled (c :: y) := by
      refine hspelled _ ?_
      rw [pieces_word hne hrun hends]
      exact List.mem_cons_self
    have halpha : c.isAlpha = true := by
      have halphanum := hword.1 c List.mem_cons_self
      rw [Char.isAlphanum, (h c rfl).1, Bool.or_false] at halphanum
      exact halphanum
    rcases exists_shiftWord_letter halpha (fun e he => hword.1 e (List.mem_cons_of_mem _ he))
      (hkeeps.of_word hne hrun hends).1 with ⟨c', y', hmoved, halpha', _, _, _⟩
    rw [shiftChars_word hne hrun hends, hmoved] at hd
    cases hd
    refine ⟨not_isDigit_of_isAlpha halpha', ?_, ?_⟩
    · rintro rfl
      cases halpha'
    · rintro rfl
      cases halpha'

/-- The shifted text starts with the shifted lexeme. -/
theorem exists_starts_shiftChars {l : Lexeme} {t rest : List Char}
    (hstarts : Lexeme.Starts l t rest) (hspelled : WellSpelled t) (hkeeps : s.Keeps t) :
    ∃ l', Lexeme.Starts l' (s.shiftChars t) (s.shiftChars rest) ∧ s.MovesLexeme l l' ∧
      WellSpelled rest ∧ s.Keeps rest := by
  have hpoint : isWord '.' = false := by decide
  have hpercent : isWord '%' = false := by decide
  have hcolon : isWord ':' = false := by decide
  cases hstarts with
  | @blank c _ hblank =>
      have hc := not_isWord_of_isBlank hblank
      rw [shiftChars_mark hc]
      exact ⟨_, .blank hblank, .same rfl, hspelled.of_mark hc, hkeeps.of_mark hc⟩
  | @mark c _ hblank halphanum hnot =>
      -- A word character would be part of a word, and would have to be a letter or a digit.
      have hc : isWord c = false := by
        refine Bool.eq_false_iff.2 fun hword => ?_
        have hwhole : WellSpelled ([] ++ c :: rest) := hspelled
        rcases hwhole.across (List.forall_mem_nil _) rfl hword with ⟨more, hmore⟩
        have hcontra := hmore.1 c List.mem_cons_self
        rw [halphanum] at hcontra
        cases hcontra
      rw [shiftChars_mark hc]
      exact ⟨_, .mark hblank halphanum hnot, .same (Lexeme.isReference_ofChar c),
        hspelled.of_mark hc, hkeeps.of_mark hc⟩
  | @call f run _ hnamed hends hopen =>
      have halpha := Aggregate.isAlpha_of_isNamed hnamed
      rcases shiftChars_run hspelled hkeeps
        (fun c hc => isAlphanum_of_isAlpha (halpha c hc)) hends with
        ⟨hshift, hends', _, hspelled', hkeeps'⟩
      rw [hshift, shiftWord_letters halpha]
      exact ⟨_, .call hnamed (endsRun_shiftChars hends').isAlphanum
        ((head?_trimStart_shiftChars hkeeps').2 hopen), .same rfl, hspelled', hkeeps'⟩
  | @word c run _ halpha hrun hends hcallee halone =>
      -- A word stands alone after the shift as well: no digit comes into it and no colon behind it.
      rcases shiftChars_run hspelled hkeeps (spelled_of_letter halpha hrun).1 hends with
        ⟨hshift, hends', hkeepsWord, hspelled', hkeeps'⟩
      rcases exists_shiftWord_letter halpha hrun hkeepsWord with
        ⟨c', run', hmoved, halpha', hrun', hdigit, hcallee'⟩
      have hmoves := MovesLexeme.word hkeepsWord
      rw [hmoved] at hmoves
      rw [hshift, hmoved]
      refine ⟨_, .word halpha' hrun' (endsRun_shiftChars hends').isAlphanum ?_ ?_, hmoves,
        hspelled', hkeeps'⟩
      · rw [callee?_shiftChars hkeeps']
        exact hcallee' rest hcallee
      · intro hany hhead
        rw [hdigit] at hany
        rcases head_shiftChars hkeeps' ':' hhead with hsame | ⟨hword, _⟩
        · exact halone hany hsame
        · rw [hcolon] at hword
          cases hword
  | @pair c run second _ halpha hrun hdigit hsecond hends =>
      have hfirst := (spelled_of_letter halpha hrun).1
      rcases shiftChars_run hspelled hkeeps hfirst (endsRun_cons rfl) with
        ⟨hshift, _, hkeepsWord, hspelled', hkeeps'⟩
      rcases shiftChars_run (hspelled'.of_mark hcolon) (hkeeps'.of_mark hcolon) hsecond hends with
        ⟨hshift', hends', hkeepsWord', hspelled'', hkeeps''⟩
      rcases exists_shiftWord_letter halpha hrun hkeepsWord with
        ⟨c', run', hmoved, halpha', hrun', hany, _⟩
      have hmoves := MovesLexeme.pair hfirst hsecond hkeepsWord hkeepsWord'
      rw [hmoved] at hmoves
      rw [hshift, shiftChars_mark hcolon, hshift', hmoved]
      exact ⟨_, .pair halpha' hrun' (hany.trans hdigit) (isAlphanum_shiftWord hkeepsWord' hsecond)
        (endsRun_shiftChars hends').isAlphanum, hmoves, hspelled'', hkeeps''⟩
  | @whole c run _ hrun hends =>
      rcases shiftChars_digits hspelled hkeeps hrun fun d hd => (hends d hd).1 with
        ⟨hshift, hspelled', hkeeps'⟩
      rw [hshift]
      exact ⟨_, .whole hrun (head_shiftChars_of_number hspelled' hkeeps' hends), .same rfl,
        hspelled', hkeeps'⟩
  | @wholePercent c run _ hrun =>
      rcases shiftChars_digits hspelled hkeeps hrun (endsRun_cons rfl) with
        ⟨hshift, hspelled', hkeeps'⟩
      rw [hshift, shiftChars_mark hpercent]
      exact ⟨_, .wholePercent hrun, .same rfl, hspelled'.of_mark hpercent, hkeeps'.of_mark hpercent⟩
  | @fraction whole fraction _ hwhole hfraction hends =>
      rcases shiftChars_digits hspelled hkeeps hwhole (endsRun_cons rfl) with
        ⟨hshift, hspelled', hkeeps'⟩
      rcases shiftChars_digits (hspelled'.of_mark hpoint) (hkeeps'.of_mark hpoint) hfraction
        fun d hd => (hends d hd).1 with ⟨hshift', hspelled'', hkeeps''⟩
      rw [hshift, shiftChars_mark hpoint, hshift']
      exact ⟨_, .fraction hwhole hfraction (head_shiftChars_of_number hspelled'' hkeeps'' hends),
        .same rfl, hspelled'', hkeeps''⟩
  | @fractionPercent whole fraction _ hwhole hfraction =>
      rcases shiftChars_digits hspelled hkeeps hwhole (endsRun_cons rfl) with
        ⟨hshift, hspelled', hkeeps'⟩
      rcases shiftChars_digits (hspelled'.of_mark hpoint) (hkeeps'.of_mark hpoint) hfraction
        (endsRun_cons rfl) with ⟨hshift', hspelled'', hkeeps''⟩
      rw [hshift, shiftChars_mark hpoint, hshift', shiftChars_mark hpercent]
      exact ⟨_, .fractionPercent hwhole hfraction, .same rfl, hspelled''.of_mark hpercent,
        hkeeps''.of_mark hpercent⟩
  | @twoPoints whole fraction _ hwhole hfraction =>
      rcases shiftChars_digits hspelled hkeeps hwhole (endsRun_cons rfl) with
        ⟨hshift, hspelled', hkeeps'⟩
      rcases shiftChars_digits (hspelled'.of_mark hpoint) (hkeeps'.of_mark hpoint) hfraction
        (endsRun_cons rfl) with ⟨hshift', hspelled'', hkeeps''⟩
      rw [hshift, shiftChars_mark hpoint, hshift', shiftChars_mark hpoint]
      exact ⟨_, .twoPoints hwhole hfraction, .same rfl, hspelled''.of_mark hpoint,
        hkeeps''.of_mark hpoint⟩

/-- The lexemes of a shifted text are the shifted lexemes. -/
theorem forall₂_movesLexeme {t : List Char} (hspelled : WellSpelled t) (hkeeps : s.Keeps t) :
    List.Forall₂ s.MovesLexeme (lexemes t) (lexemes (s.shiftChars t)) := by
  induction t using Lexeme.starts_induction with
  | nil =>
      rw [shiftChars_nil, lexemes]
      exact .nil
  | lexeme l t rest hstarts ih =>
      rcases exists_starts_shiftChars hstarts hspelled hkeeps with
        ⟨l', hstarts', hmoves, hspelled', hkeeps'⟩
      rw [lexemes_of_starts hstarts, lexemes_of_starts hstarts']
      exact .cons hmoves (ih hspelled' hkeeps')

end Shift

end Worksheet
