import Worksheet.Proofs.Evaluation.Dependency
import Worksheet.Proofs.Reference.Tokens
import Worksheet.Reference.Scan

/-!
# Mentions in the text of a formula

Searching a text for references knows nothing of lexemes: it cuts the text into words and looks at
their form. In the text of a formula it finds the cells and ranges of the tokens all the same, one
mention for each. A cell is a whole word that no colon follows, a range is two words with the colon
between them, and the words of numbers and function names have not the form of an address.

## Main definitions

* `Reference.Mention.Denotes`: A mention and the cell or range that it stands for.
* `Reference.IsPartner`: What makes a candidate the first of a range.

## Theorems

* `Reference.isCandidate_iff`: Candidates are letters and then digits.
* `Reference.isCandidate_of_ofChars?`: Addresses have the form that is searched for.
* `Reference.mentions_cell`, `Reference.mentions_range`: What a search finds at the start of a text.
* `Reference.denotes_of_tokens`: The mentions in a text are the arguments of its tokens.
* `Reference.denotes_of_parse`: The mentions in the text of a formula are its arguments.
-/

namespace Worksheet

open Text Grammar

namespace Reference

/-- A mention and the cell or range that it stands for. -/
inductive Mention.Denotes : Mention → Argument → Prop where
  | cell {word : List Char} {a : Address} (h : Address.ofChars? word = some a) :
      Denotes (.cell word) (.cell a)
  | range {first last : List Char} {a b : Address} (ha : Address.ofChars? first = some a)
      (hb : Address.ofChars? last = some b) : Denotes (.range first last) (.range (.spanning a b))

section Candidates

variable {word : List Char}

theorem not_isLetter_of_isDigit {c : Char} (h : c.isDigit = true) : isLetter c = false := by
  have hne : ∀ d : Char, d.isDigit = false → c ≠ d := by
    rintro d hd rfl
    rw [h] at hd
    cases hd
  rw [isLetter, not_isAlpha_of_isDigit h, decide_eq_false (hne _ (by decide)),
    decide_eq_false (hne _ (by decide))]
  rfl

theorem isLetter_of_isAlpha {c : Char} (h : c.isAlpha = true) : isLetter c = true := by
  rw [isLetter, h, Bool.true_or, Bool.true_or]

/-- A candidate is letters and then digits, some of each. -/
theorem isCandidate_iff : isCandidate word = true ↔
    ∃ letters digits, word = letters ++ digits ∧
      (letters ≠ [] ∧ ∀ c ∈ letters, isLetter c = true) ∧
        digits ≠ [] ∧ ∀ c ∈ digits, c.isDigit = true := by
  constructor
  · intro h
    rw [isCandidate, Bool.and_eq_true, Bool.and_eq_true, Bool.not_eq_true', Bool.not_eq_true',
      List.isEmpty_eq_false_iff, List.isEmpty_eq_false_iff, List.all_eq_true] at h
    exact ⟨_, _, List.takeWhile_append_dropWhile.symm,
      ⟨h.1.1, fun c hc => List.mem_takeWhile_imp hc⟩, h.1.2, h.2⟩
  · rintro ⟨letters, digits, rfl, ⟨hne, hletters⟩, hne', hdigits⟩
    have hends : EndsRun isLetter digits := fun c hc =>
      not_isLetter_of_isDigit (hdigits c (List.mem_of_mem_head? hc))
    rw [isCandidate, takeWhile_run hletters hends, dropWhile_run hletters hends,
      List.isEmpty_eq_false_iff.2 hne, List.isEmpty_eq_false_iff.2 hne', List.all_eq_true.2 hdigits]
    rfl

/-- Every address is a candidate. -/
theorem isCandidate_of_ofChars? {a : Address} (h : Address.ofChars? word = some a) :
    isCandidate word = true := by
  rcases Address.letters_digits_of_ofChars? h with ⟨hletters, hdigits, hall⟩
  exact isCandidate_iff.2 ⟨_, _, List.takeWhile_append_dropWhile.symm,
    ⟨hletters, fun c hc => isLetter_of_isAlpha (List.mem_takeWhile_imp hc)⟩, hdigits, hall⟩

/-- Letters alone are no candidate, so no function name is. -/
theorem not_isCandidate_of_letters (h : ∀ c ∈ word, c.isAlpha = true) :
    isCandidate word = false := by
  have hnone : word.dropWhile isLetter = [] :=
    List.dropWhile_eq_nil_iff.2 fun c hc => isLetter_of_isAlpha (h c hc)
  rw [isCandidate, hnone, List.isEmpty_nil, Bool.not_true, Bool.and_false, Bool.false_and]

/-- Digits alone are no candidate, so no numeral is. -/
theorem not_isCandidate_of_digits (h : ∀ c ∈ word, c.isDigit = true) :
    isCandidate word = false := by
  have hnone : word.takeWhile isLetter = [] := by
    cases word with
    | nil => rfl
    | cons c rest =>
        exact List.takeWhile_cons_of_neg
          (Bool.eq_false_iff.1 (not_isLetter_of_isDigit (h c List.mem_cons_self)))
  rw [isCandidate, hnone, List.isEmpty_nil, Bool.not_true, Bool.false_and, Bool.false_and]

end Candidates

section Cutting

variable {run first second rest t : List Char}

theorem mentions_nil : mentions [] = [] := by
  rw [mentions, pieces_nil, mentionsIn]

theorem mentionsIn_mark (c : Char) (ps : List Piece) :
    mentionsIn (.mark c :: ps) = mentionsIn ps := by
  rw [mentionsIn]

/-- A sign mentions nothing. -/
theorem mentions_mark {c : Char} (hc : isWord c = false) :
    mentions (c :: rest) = mentions rest := by
  rw [mentions, pieces_mark hc, mentionsIn_mark, mentions]

-- What follows a word that is no candidate is searched as if the word were not there.
theorem mentionsIn_other (h : isCandidate run = false) (ps : List Piece) :
    mentionsIn (.word run :: ps) = mentionsIn ps := by
  rw [mentionsIn.eq_def]
  split
  · rename_i hnil
    cases hnil
  · rename_i hpieces
    cases hpieces
    rw [if_neg (Bool.eq_false_iff.1 h)]
  · rename_i hpieces
    cases hpieces
    rw [if_neg (Bool.eq_false_iff.1 h)]
  · rename_i hmark
    cases hmark

/-- A candidate with no partner behind it is a mention of a single cell. -/
theorem mentionsIn_alone (h : isCandidate run = true) {ps : List Piece}
    (hps : ∀ last rest, ps ≠ .mark ':' :: .word last :: rest) :
    mentionsIn (.word run :: ps) = .cell run :: mentionsIn ps := by
  rw [mentionsIn, if_pos h]
  exact hps

/-- Signs in front add no mention. -/
theorem mentionsIn_marks_append (marks : List Char) (ps : List Piece) :
    mentionsIn (marks.map .mark ++ ps) = mentionsIn ps := by
  induction marks with
  | nil => rfl
  | cons c rest ih => rw [List.map_cons, List.cons_append, mentionsIn_mark, ih]

/-- Signs behind add no mention. -/
theorem mentionsIn_append_marks (marks : List Char) (ps : List Piece) :
    mentionsIn (ps ++ marks.map .mark) = mentionsIn ps := by
  have hword : ∀ {last : List Char}, Piece.word last ∉ marks.map Piece.mark := by
    intro last hmem
    rcases List.mem_map.1 hmem with ⟨c, _, hc⟩
    cases hc
  -- No word follows the pieces, so none of them gets a partner.
  fun_induction mentionsIn ps with
  | case1 =>
      have hnone := mentionsIn_marks_append marks []
      rwa [List.append_nil] at hnone
  | case2 first last rest hfirst hlast ih =>
      simp only [List.cons_append, mentionsIn, if_pos hfirst, if_pos hlast, ih]
  | case3 first last rest hfirst hlast ih =>
      rw [List.cons_append, List.cons_append] at ih
      simp only [List.cons_append, mentionsIn.eq_2, if_pos hfirst, if_neg hlast, ih]
  | case4 first last rest hfirst ih =>
      rw [List.cons_append, mentionsIn_other (Bool.eq_false_iff.2 hfirst), ih]
  | case5 run rest halone hrun ih =>
      rw [List.cons_append, mentionsIn_alone hrun, ih]
      intro last more hpartner
      match rest, hpartner with
      | [], hpartner => exact hword (hpartner ▸ List.mem_cons_of_mem _ List.mem_cons_self)
      | [_], hpartner =>
          injection hpartner with _ hpartner
          exact hword (hpartner ▸ List.mem_cons_self)
      | _ :: _ :: _, hpartner =>
          cases hpartner
          exact halone _ _ rfl
  | case6 run rest _ hrun ih =>
      rw [List.cons_append, mentionsIn_other (Bool.eq_false_iff.2 hrun), ih]
  | case7 c rest ih => rw [List.cons_append, mentionsIn_mark, ih]

/-- A word that is no candidate mentions nothing. -/
theorem mentions_other (hrun : ∀ c ∈ run, isWord c = true)
    (hends : run ≠ [] → EndsRun isWord rest) (h : isCandidate run = false) :
    mentions (run ++ rest) = mentions rest := by
  by_cases hne : run = []
  · rw [hne, List.nil_append]
  · rw [mentions, pieces_word hne hrun (hends hne), mentionsIn_other h, mentions]

/-- What stands behind a candidate that is the first of a range: a colon, and a candidate. -/
def IsPartner (rest last behind : List Char) : Prop :=
  rest = ':' :: (last ++ behind) ∧ isCandidate last = true ∧ EndsRun isWord behind

-- A colon and a word are told from the pieces of a text.
theorem exists_of_pieces_eq {last : List Char} {ps : List Piece}
    (h : pieces rest = .mark ':' :: .word last :: ps) :
    ∃ behind, rest = ':' :: (last ++ behind) ∧ EndsRun isWord behind := by
  rcases text_cases rest with rfl | ⟨c, x, rfl, hc⟩ | ⟨run, x, rfl, hne, hrun, hx⟩
  · rw [pieces_nil] at h
    cases h
  · -- The sign in front is the colon, and behind it a word begins.
    rw [pieces_mark hc, List.cons.injEq, Piece.mark.injEq] at h
    rcases h with ⟨rfl, h⟩
    rcases text_cases x with rfl | ⟨d, y, rfl, hd⟩ | ⟨run, y, rfl, hne, hrun, hy⟩
    · rw [pieces_nil] at h
      cases h
    · rw [pieces_mark hd] at h
      cases h
    · rw [pieces_word hne hrun hy, List.cons.injEq, Piece.word.injEq] at h
      rw [h.1]
      exact ⟨y, rfl, hy⟩
  · rw [pieces_word hne hrun hx] at h
    cases h

/-- A candidate without a partner is a cell, whatever else stands behind it. -/
theorem mentions_cell (hrun : ∀ c ∈ run, isWord c = true) (hends : EndsRun isWord rest)
    (h : isCandidate run = true) (halone : ∀ last behind, ¬ IsPartner rest last behind) :
    mentions (run ++ rest) = .cell run :: mentions rest := by
  have hne : run ≠ [] := by
    rintro rfl
    cases h
  rw [mentions, pieces_word hne hrun hends]
  by_cases hpieces : ∃ last ps, pieces rest = .mark ':' :: .word last :: ps
  · -- Behind the colon stands a word of another kind.
    rcases hpieces with ⟨last, ps, hpieces⟩
    rcases exists_of_pieces_eq hpieces with ⟨behind, hrest, hbehind⟩
    have hlast : ¬ isCandidate last = true := fun hlast =>
      halone last behind ⟨hrest, hlast, hbehind⟩
    rw [mentions, hpieces, mentionsIn, if_pos h, if_neg hlast]
  · rw [mentionsIn_alone h fun last ps heq => hpieces ⟨last, ps, heq⟩, mentions]

/-- Two candidates with a colon between them are a mention of a range. -/
theorem mentions_range (hfirst : ∀ c ∈ first, isWord c = true)
    (hsecond : ∀ c ∈ second, isWord c = true) (hends : EndsRun isWord rest)
    (h : isCandidate first = true) (h' : isCandidate second = true) :
    mentions (first ++ ':' :: (second ++ rest)) = .range first second :: mentions rest := by
  have hcolon : isWord ':' = false := by decide
  have hne : ∀ {word : List Char}, isCandidate word = true → word ≠ [] := by
    rintro word hword rfl
    cases hword
  rw [mentions, pieces_word (hne h) hfirst (endsRun_cons hcolon), pieces_mark hcolon,
    pieces_word (hne h') hsecond hends, mentionsIn, if_pos h, if_pos h', mentions]

/-- Signs around a text add no mention. -/
theorem mentions_surrounded {before core behind : List Char}
    (hbefore : ∀ c ∈ before, isWord c = false) (hbehind : ∀ c ∈ behind, isWord c = false) :
    mentions (before ++ core ++ behind) = mentions core := by
  rw [mentions, pieces_append_marks hbehind, pieces_marks_append hbefore, mentionsIn_append_marks,
    mentionsIn_marks_append, mentions]

end Cutting

section Lexemes

variable {t rest : List Char}

/-- An address is made of word characters. -/
theorem isWord_of_ofChars? {word : List Char} {a : Address} (h : Address.ofChars? word = some a) :
    ∀ c ∈ word, isWord c = true := fun c hc =>
  isWord_of_isAlphanum (Address.isAlphanum_of_ofChars? h c hc)

-- The digits of a number are no mention, wherever they stand.
theorem mentions_digits {run : List Char} (hspelled : WellSpelled (run ++ rest))
    (hrun : ∀ c ∈ run, c.isDigit = true) (hends : EndsRun Char.isDigit rest) :
    mentions (run ++ rest) = mentions rest := by
  refine mentions_other (fun c hc => isWord_of_isAlphanum (isAlphanum_of_isDigit (hrun c hc)))
    (fun hne => ?_) (not_isCandidate_of_digits hrun)
  cases run with
  | nil => exact absurd rfl hne
  | cons c x => exact hspelled.endsRun_of_digits hrun hends

/-- No sign is an argument. -/
theorem argument?_of_ofChar {position : Nat} {c : Char} {token : Option Token}
    (h : (Lexeme.ofChar c).token? position = .ok token) :
    token.toList.filterMap Token.argument? = [] := by
  unfold Lexeme.ofChar at h
  split at h
  · cases h
    rfl
  · -- Parentheses and commas name nothing, and other characters have no meaning.
    split_ifs at h <;> cases h <;> rfl

/-- One lexeme: it is a mention if its token is an argument, and otherwise none. -/
theorem denotes_of_starts {position : Nat} {l : Lexeme} {token : Option Token}
    {args : List Argument} (hstarts : Lexeme.Starts l t rest) (hspelled : WellSpelled t)
    (htoken : l.token? position = .ok token)
    (h : List.Forall₂ Mention.Denotes (mentions rest) args) :
    List.Forall₂ Mention.Denotes (mentions t) (token.toList.filterMap Token.argument? ++ args) := by
  have hboundary := Lexeme.isAlphanum_of_starts hstarts htoken
  have hpoint : isWord '.' = false := by decide
  have hpercent : isWord '%' = false := by decide
  have hcolon : isWord ':' = false := by decide
  -- Numbers are no arguments, and a number is its digits with marks between and behind them.
  have hnumber : ∀ {whole fraction percent},
      (Lexeme.literal whole fraction percent).token? position = .ok token →
        token.toList.filterMap Token.argument? = [] := by
    intro whole fraction percent hliteral
    rcases Lexeme.exists_number_of_token? hliteral with ⟨x, rfl⟩
    rfl
  cases hstarts with
  | blank hblank =>
      cases htoken
      rw [mentions_mark (not_isWord_of_isBlank hblank)]
      exact h
  | @mark c _ hblank halphanum _ =>
      have hc : isWord c = false := Bool.eq_false_iff.2 fun hword => by
        rw [hboundary c rfl hword] at halphanum
        cases halphanum
      rw [mentions_mark hc, argument?_of_ofChar htoken]
      exact h
  | call hnamed hends _ =>
      have halpha := Aggregate.isAlpha_of_isNamed hnamed
      have hall := fun c hc => isAlphanum_of_isAlpha (halpha c hc)
      cases htoken
      rw [mentions_other (fun c hc => isWord_of_isAlphanum (hall c hc))
        (fun _ => hspelled.endsRun hall hends) (not_isCandidate_of_letters halpha)]
      exact h
  | word halpha hrun hends _ halone =>
      have hall := isAlphanum_of_mem_cons halpha hrun
      rcases map_eq_ok_iff.1 htoken with ⟨a, hread, rfl⟩
      have ha := Lexeme.readWord_eq_ok_iff.1 hread
      rw [mentions_cell (isWord_of_ofChars? ha) (hspelled.endsRun hall hends)
        (isCandidate_of_ofChars? ha) fun last behind hpartner =>
          halone (Address.any_isDigit_of_ofChars? ha) (by rw [hpartner.1]; rfl)]
      exact .cons (.cell ha) h
  | pair halpha hrun _ hsecond hends =>
      have hfirst := isAlphanum_of_mem_cons halpha hrun
      rcases map_eq_ok_iff.1 htoken with ⟨r, hread, rfl⟩
      rcases (Lexeme.readPair_eq_ok_iff hfirst hsecond).1 hread with ⟨a, b, ha, hb, rfl⟩
      have hrest := (hspelled.of_word (List.cons_ne_nil _ _) (isWord_of_ofChars? ha)
        (endsRun_cons hcolon)).of_mark hcolon
      rw [mentions_range (isWord_of_ofChars? ha) (isWord_of_ofChars? hb)
        (hrest.endsRun hsecond hends) (isCandidate_of_ofChars? ha) (isCandidate_of_ofChars? hb)]
      exact .cons (.range ha hb) h
  | whole hrun hends =>
      rw [hnumber htoken, mentions_digits hspelled hrun fun d hd => (hends d hd).1]
      exact h
  | wholePercent hrun =>
      rw [hnumber htoken, mentions_digits hspelled hrun (endsRun_cons rfl),
        mentions_mark hpercent]
      exact h
  | fraction hwhole hfraction hends =>
      rw [hnumber htoken, mentions_digits hspelled hwhole (endsRun_cons rfl), mentions_mark hpoint,
        mentions_digits (hspelled.behind_point hwhole) hfraction fun d hd => (hends d hd).1]
      exact h
  | fractionPercent hwhole hfraction =>
      rw [hnumber htoken, mentions_digits hspelled hwhole (endsRun_cons rfl), mentions_mark hpoint,
        mentions_digits (hspelled.behind_point hwhole) hfraction
          (endsRun_cons (by decide : Char.isDigit '%' = false)), mentions_mark hpercent]
      exact h
  | twoPoints _ _ => cases htoken

/-- The mentions in a text are the arguments of its tokens. -/
theorem denotes_of_tokens {position : Nat} {depth : Int32} {ts : List Token}
    (htokens : tokensFrom position depth (lexemes t) = .ok ts)
    (hchain : ts.IsChain Token.MayPrecede) :
    List.Forall₂ Mention.Denotes (mentions t) (ts.filterMap Token.argument?) := by
  induction t using Lexeme.starts_induction generalizing position depth ts with
  | nil =>
      rw [lexemes, tokensFrom] at htokens
      split at htokens
      · cases htokens
        rw [mentions_nil]
        exact .nil
      · cases htokens
  | lexeme l t rest hstarts ih =>
      have hspelled := wellSpelled_of_tokens htokens hchain
      rw [lexemes_of_starts hstarts] at htokens
      rcases tokensFrom_cons_eq_ok_iff.1 htokens with ⟨_, token, us, _, htoken, hus, rfl⟩
      -- The first lexeme gives the first mention and the first argument, or neither.
      rw [List.filterMap_append]
      exact denotes_of_starts hstarts hspelled htoken (ih hus hchain.right_of_append)

end Lexemes

/-- The mentions in the text of a formula are its arguments, one by one. -/
theorem denotes_of_parse {text : String} {f : Formula} {e : Expression}
    (hparse : Formula.parse text = .ok f)
    (hderives : Derives .sum f.tokens e) :
    List.Forall₂ Mention.Denotes (mentions text.toList) f.arguments := by
  rcases Formula.parse_eq_ok_iff.1 hparse with ⟨body, hbody, htokens⟩
  have hmentions := denotes_of_tokens htokens (isChain_of_derives hderives)
  -- The equals sign and the blanks around the text are no words.
  rcases exists_trim text.toList with ⟨before, behind, ht, hbefore, hbehind, _, _⟩
  rw [hbody] at ht
  rw [ht, mentions_surrounded (fun c hc => not_isWord_of_isBlank (hbefore c hc))
    (fun c hc => not_isWord_of_isBlank (hbehind c hc)), mentions_mark (by decide)]
  exact hmentions

end Reference

end Worksheet
