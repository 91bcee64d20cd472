import Mathlib.Data.List.Chain
import Worksheet.Formula.Basic
import Worksheet.Proofs.Address.Reading
import Worksheet.Proofs.Formula.Grammar
import Worksheet.Proofs.Formula.Scanning

/-!
# How formulas are spelled

The text of a formula that the grammar accepts has nothing but letters and digits of ASCII in its
words, and a word that starts with a digit is a number throughout. Lexemes and words can therefore
be told apart by the same boundaries, which is not so in general: a number may end inside a word, as
in `1A1`, but what follows such a number cannot follow it in a formula.

## Main definitions

* `Token.MayPrecede`: What may stand behind a number.
* `Text.Spelled`, `Text.WellSpelled`: The words of formulas, and the texts made of them.

## Theorems

* `Lexeme.readWord_eq_ok_iff`, `Lexeme.readPair_eq_ok_iff`: Words are read as addresses.
* `Grammar.isChain_of_derives`: Numbers are followed by operators or closing parentheses.
* `wellSpelled_of_tokens`: Formulas are well spelled.
-/

namespace Worksheet

open Text

namespace Lexeme

variable {run first second : List Char}

/-- A word is read as a cell reference exactly when it is an address. -/
theorem readWord_eq_ok_iff {a : Address} :
    readWord run = .ok a ↔ Address.ofChars? run = some a := by
  unfold readWord
  by_cases hdigit : run.any Char.isDigit = true
  · rw [if_pos hdigit, mapError_eq_ok_iff, Address.ofChars?, toOption_eq_some_iff]
  · rw [if_neg hdigit]
    constructor
    · intro h
      cases h
    · -- An address has digits.
      exact fun h => absurd (Address.any_isDigit_of_ofChars? h) hdigit

theorem ne_colon_of_isAlphanum {c : Char} (h : c.isAlphanum = true) :
    decide (c ≠ ':') = true := by
  refine decide_eq_true ?_
  rintro rfl
  cases h

/-- Two words around a colon are read as a range exactly when both are addresses; the range is the
    one they span, whichever corner comes first. -/
theorem readPair_eq_ok_iff {r : Range} (hfirst : ∀ c ∈ first, c.isAlphanum = true)
    (hsecond : ∀ c ∈ second, c.isAlphanum = true) : readPair first second = .ok r ↔
      ∃ a b, Address.ofChars? first = some a ∧ Address.ofChars? second = some b ∧
        r = Range.spanning a b := by
  have hcolon : EndsRun (fun c => decide (c ≠ ':')) (':' :: second) := endsRun_cons (by decide)
  -- Neither run has a colon, so the text is split between them and nowhere else.
  have hone : second.contains ':' = false := by
    refine Bool.eq_false_iff.2 fun h => ?_
    cases hsecond ':' (List.contains_iff_mem.1 h)
  have hsplit := fun c hc => ne_colon_of_isAlphanum (hfirst c hc)
  unfold readPair
  rw [mapError_eq_ok_iff, Range.ofChars, takeWhile_run hsplit hcolon, dropWhile_run hsplit hcolon]
  dsimp only
  rw [if_neg (Bool.eq_false_iff.1 hone), Address.ofChars?, Address.ofChars?]
  simp only [toOption_eq_some_iff]
  constructor
  · intro h
    rcases bind_eq_ok_iff.1 h with ⟨a, ha, h⟩
    rcases bind_eq_ok_iff.1 h with ⟨b, hb, h⟩
    cases h
    exact ⟨a, b, mapError_eq_ok_iff.1 ha, mapError_eq_ok_iff.1 hb, rfl⟩
  · rintro ⟨a, b, ha, hb, rfl⟩
    rw [mapError_eq_ok_iff.2 ha, mapError_eq_ok_iff.2 hb]
    rfl

end Lexeme

/-- A number is followed by an operator or a closing parenthesis, if by anything. -/
def Token.MayPrecede : Token → Token → Prop
  | .number _, u => (∃ op, u = .operator op) ∨ u = .closing
  | _, _ => True

namespace Grammar

open Token

/-- Anything may stand in front of an operator. -/
theorem mayPrecede_operator (t : Token) (op : Operator) : t.MayPrecede (.operator op) := by
  cases t with
  | number x => exact Or.inl ⟨op, rfl⟩
  | cell a | range r | function f | operator op | opening | closing => trivial

/-- Anything may stand in front of a closing parenthesis. -/
theorem mayPrecede_closing (t : Token) : t.MayPrecede .closing := by
  cases t with
  | number x => exact Or.inr rfl
  | cell a | range r | function f | operator op | opening | closing => trivial

theorem isChain_arguments (args : List Argument) :
    List.IsChain MayPrecede (args.map Argument.token ++ [.closing]) := by
  induction args with
  | nil => exact List.isChain_singleton _
  | cons arg rest ih =>
      refine ih.cons fun u _ => ?_
      cases arg with
      | cell a | range r => trivial

/-- In the tokens of a tree, nothing stands next to something it may not precede. -/
theorem isChain_of_derives {level : Level} {ts : List Token} {e : Expression}
    (h : Derives level ts e) : ts.IsChain MayPrecede := by
  -- Each rule joins its parts by operators and parentheses, which may stand behind anything or be
  -- followed by anything.
  induction h with
  | number x => exact List.isChain_singleton _
  | cell a => exact List.isChain_singleton _
  | negation _ ih => exact ih.cons fun u _ => trivial
  | group _ ih =>
      refine (ih.append (List.isChain_singleton _) fun t _ u hu => ?_).cons fun u _ => trivial
      cases hu
      exact mayPrecede_closing t
  | call f args =>
      have hopening : List.IsChain MayPrecede
          (.opening :: (args.map Argument.token ++ [.closing])) :=
        (isChain_arguments args).cons fun u _ => trivial
      exact hopening.cons fun u _ => trivial
  | ofOperand _ ih => exact ih
  | factor op _ _ _ ihl ihr =>
      refine ihl.append (ihr.cons fun u _ => trivial) fun t _ u hu => ?_
      cases hu
      exact mayPrecede_operator t op
  | ofProduct _ ih => exact ih
  | term op _ _ _ ihl ihr =>
      refine ihl.append (ihr.cons fun u _ => trivial) fun t _ u hu => ?_
      cases hu
      exact mayPrecede_operator t op

end Grammar

namespace Text

/-- Letters and digits of ASCII, and nothing but digits if the first is one. -/
def Spelled (run : List Char) : Prop :=
  (∀ c ∈ run, c.isAlphanum = true) ∧
    ((∃ c ∈ run.head?, c.isDigit = true) → ∀ d ∈ run, d.isDigit = true)

/-- All words of a text are spelled so. -/
def WellSpelled (t : List Char) : Prop := ∀ run, .word run ∈ pieces t → Spelled run

theorem wellSpelled_nil : WellSpelled [] := by
  intro run h
  rw [pieces_nil] at h
  cases h

theorem WellSpelled.mark {c : Char} {rest : List Char} (hc : isWord c = false)
    (h : WellSpelled rest) : WellSpelled (c :: rest) := words_of_mark hc h

theorem WellSpelled.word {run rest : List Char} (hrun : Spelled run)
    (hends : run ≠ [] → EndsRun isWord rest) (h : WellSpelled rest) :
    WellSpelled (run ++ rest) :=
  words_of_word (fun c hc => isWord_of_isAlphanum (hrun.1 c hc)) hends hrun h

/-- A mark in front can be taken away from a well spelled text. -/
theorem WellSpelled.of_mark {c : Char} {rest : List Char} (hc : isWord c = false)
    (h : WellSpelled (c :: rest)) : WellSpelled rest :=
  fun run hrun => h run (mem_pieces_of_mark hc hrun)

/-- A whole word in front can be taken away from a well spelled text. -/
theorem WellSpelled.of_word {run rest : List Char} (hne : run ≠ [])
    (hrun : ∀ c ∈ run, isWord c = true) (hends : EndsRun isWord rest)
    (h : WellSpelled (run ++ rest)) : WellSpelled rest :=
  fun other hother => h other (mem_pieces_of_word hne hrun hends hother)

-- A word that starts in front of a place and goes on behind it is one word.
theorem WellSpelled.across {run rest : List Char} {c : Char} (h : WellSpelled (run ++ rest))
    (hrun : ∀ d ∈ run, isWord d = true) (hc : rest.head? = some c) (hword : isWord c = true) :
    ∃ more, Spelled (run ++ c :: more) := by
  rcases exists_run isWord rest with ⟨w, behind, rfl, hw, hends⟩
  cases w with
  | nil =>
      rw [hends c hc] at hword
      cases hword
  | cons d more =>
      cases hc
      -- The run and what continues it are one word of the text.
      refine ⟨more, h _ ?_⟩
      rw [← List.append_assoc, pieces_word (List.append_ne_nil_of_right_ne_nil _
        (List.cons_ne_nil _ _)) (fun e he => ?_) hends]
      · exact List.mem_cons_self
      · rcases List.mem_append.1 he with he | he
        · exact hrun e he
        · exact hw e he

/-- In a well spelled text a run of letters and digits is not continued by an underscore. -/
theorem WellSpelled.endsRun {run rest : List Char} (h : WellSpelled (run ++ rest))
    (hrun : ∀ d ∈ run, d.isAlphanum = true) (hends : EndsRun Char.isAlphanum rest) :
    EndsRun isWord rest := by
  intro c hc
  refine Bool.eq_false_iff.2 fun hword => ?_
  rcases h.across (fun d hd => isWord_of_isAlphanum (hrun d hd)) hc hword with ⟨more, hspelled⟩
  have halphanum := hspelled.1 c (List.mem_append_right _ List.mem_cons_self)
  rw [hends c hc] at halphanum
  cases halphanum

/-- In a well spelled text a run of digits is not continued by a letter either: the word it begins
    is a number. -/
theorem WellSpelled.endsRun_of_digits {d : Char} {run rest : List Char}
    (h : WellSpelled (d :: run ++ rest)) (hrun : ∀ e ∈ d :: run, e.isDigit = true)
    (hends : EndsRun Char.isDigit rest) : EndsRun isWord rest := by
  have hword : ∀ e ∈ d :: run, isWord e = true := fun e he =>
    isWord_of_isAlphanum (isAlphanum_of_isDigit (hrun e he))
  intro c hc
  refine Bool.eq_false_iff.2 fun hcontra => ?_
  rcases h.across hword hc hcontra with ⟨more, hspelled⟩
  have hdigit := hspelled.2 ⟨d, rfl, hrun d List.mem_cons_self⟩ c
    (List.mem_append_right _ List.mem_cons_self)
  rw [hends c hc] at hdigit
  cases hdigit

/-- The part of a number behind its point is well spelled if the number is. -/
theorem WellSpelled.behind_point {whole behind : List Char} (h : WellSpelled (whole ++ '.' :: behind))
    (hwhole : ∀ d ∈ whole, d.isDigit = true) : WellSpelled behind := by
  have hpoint : isWord '.' = false := by decide
  refine WellSpelled.of_mark hpoint ?_
  by_cases hne : whole = []
  · rw [hne] at h
    exact h
  · exact h.of_word hne (fun d hd => isWord_of_isAlphanum (isAlphanum_of_isDigit (hwhole d hd)))
      (endsRun_cons hpoint)

/-- Letters and digits behind a letter are a well spelled word. -/
theorem spelled_of_letter {c : Char} {run : List Char} (halpha : c.isAlpha = true)
    (hrun : ∀ d ∈ run, d.isAlphanum = true) : Spelled (c :: run) := by
  refine ⟨isAlphanum_of_mem_cons halpha hrun, ?_⟩
  rintro ⟨d, hd, hdigit⟩
  cases hd
  rw [not_isDigit_of_isAlpha halpha] at hdigit
  cases hdigit

theorem spelled_of_digits {run : List Char} (hrun : ∀ d ∈ run, d.isDigit = true) :
    Spelled run :=
  ⟨fun d hd => isAlphanum_of_isDigit (hrun d hd), fun _ => hrun⟩

/-- Every address is a well spelled word. -/
theorem spelled_of_ofChars? {run : List Char} {a : Address} (h : Address.ofChars? run = some a) :
    Spelled run := by
  refine ⟨Address.isAlphanum_of_ofChars? h, ?_⟩
  rintro ⟨c, hc, hdigit⟩
  rw [not_isDigit_of_isAlpha (Address.isAlpha_head_of_ofChars? h c hc)] at hdigit
  cases hdigit

end Text

-- What it takes for the tokens of several lexemes to be found.
theorem tokensFrom_cons_eq_ok_iff {position : Nat} {depth : Int32} {l : Lexeme}
    {rest : List Lexeme} {ts : List Token} : tokensFrom position depth (l :: rest) = .ok ts ↔
      ∃ depth' token us, l.depthAfter? depth = some depth' ∧ l.token? position = .ok token ∧
        tokensFrom (position + l.size) depth' rest = .ok us ∧ ts = token.toList ++ us := by
  rw [tokensFrom]
  cases hdepth : l.depthAfter? depth with
  | none => simp only [reduceCtorEq, false_and, exists_false]
  | some depth' =>
      constructor
      · intro h
        rcases bind_eq_ok_iff.1 h with ⟨token, htoken, h⟩
        rcases bind_eq_ok_iff.1 h with ⟨us, hus, h⟩
        cases h
        exact ⟨depth', token, us, rfl, htoken, hus, rfl⟩
      · rintro ⟨_, token, us, hsame, htoken, hus, rfl⟩
        cases hsame
        exact bind_eq_ok_iff.2 ⟨token, htoken, bind_eq_ok_iff.2 ⟨us, hus, rfl⟩⟩

namespace Lexeme

variable {position : Nat} {l : Lexeme} {t rest : List Char} {token : Option Token}

/-- No word character is a sign of its own. -/
theorem ofChar_of_isWord {c : Char} (h : isWord c = true) : ofChar c = .stray c := by
  have hne : ∀ d, isWord d = false → c ≠ d := by
    rintro d hd rfl
    rw [h] at hd
    cases hd
  unfold ofChar
  cases hop : Operator.ofChar? c with
  | some op =>
      have hmark : isWord op.char = false := by
        cases op <;> decide
      exact absurd (Operator.char_of_ofChar? hop).symm (hne _ hmark)
  | none =>
      dsimp only
      rw [if_neg (hne _ (by decide)), if_neg (hne _ (by decide)), if_neg (hne _ (by decide))]

/-- What a text starts with, and the lexemes that can start it if this is a letter. -/
theorem Starts.head_cases (h : Starts l t rest) {c : Char} (hc : t.head? = some c) :
    isBlank c = true ∨ (l = ofChar c ∧ c.isAlphanum = false) ∨ c.isDigit = true ∨ c = '.' ∨
      (c.isAlpha = true ∧ ((∃ f run, l = .call f run) ∨ (∃ run, l = .word run) ∨
        ∃ first second, l = .pair first second)) := by
  -- A number starts with a digit, or with its point if it has no whole part.
  have hpoint : ∀ {whole behind : List Char}, (∀ d ∈ whole, d.isDigit = true) →
      (whole ++ '.' :: behind).head? = some c → c.isDigit = true ∨ c = '.' := by
    intro whole behind hwhole hc
    cases whole with
    | nil =>
        cases hc
        exact Or.inr rfl
    | cons d x =>
        cases hc
        exact Or.inl (hwhole c List.mem_cons_self)
  cases h with
  | blank hblank =>
      cases hc
      exact Or.inl hblank
  | mark _ halphanum _ =>
      cases hc
      exact Or.inr (Or.inl ⟨rfl, halphanum⟩)
  | @call f run _ hnamed _ _ =>
      cases run with
      | nil => exact absurd rfl (Aggregate.ne_nil_of_isNamed hnamed)
      | cons d x =>
          cases hc
          have halpha := Aggregate.isAlpha_of_isNamed hnamed c List.mem_cons_self
          exact Or.inr (Or.inr (Or.inr (Or.inr ⟨halpha, Or.inl ⟨f, _, rfl⟩⟩)))
  | word halpha _ _ _ _ =>
      cases hc
      exact Or.inr (Or.inr (Or.inr (Or.inr ⟨halpha, Or.inr (Or.inl ⟨_, rfl⟩)⟩)))
  | pair halpha _ _ _ _ =>
      cases hc
      exact Or.inr (Or.inr (Or.inr (Or.inr ⟨halpha, Or.inr (Or.inr ⟨_, _, rfl⟩)⟩)))
  | whole hrun _ =>
      cases hc
      exact Or.inr (Or.inr (Or.inl (hrun c List.mem_cons_self)))
  | wholePercent hrun =>
      cases hc
      exact Or.inr (Or.inr (Or.inl (hrun c List.mem_cons_self)))
  | fraction hwhole _ _ => exact Or.inr (Or.inr ((hpoint hwhole hc).imp_right Or.inl))
  | fractionPercent hwhole _ => exact Or.inr (Or.inr ((hpoint hwhole hc).imp_right Or.inl))
  | twoPoints hwhole _ => exact Or.inr (Or.inr ((hpoint hwhole hc).imp_right Or.inl))

/-- A lexeme with a meaning starts with no other word character than a letter or digit of ASCII. -/
theorem isAlphanum_of_starts (h : Starts l t rest) (htoken : l.token? position = .ok token) :
    ∀ c ∈ t.head?, isWord c = true → c.isAlphanum = true := by
  intro c hc hword
  rcases h.head_cases hc with hblank | ⟨rfl, _⟩ | hdigit | rfl | ⟨halpha, _⟩
  · rw [not_isWord_of_isBlank hblank] at hword
    cases hword
  · rw [ofChar_of_isWord hword] at htoken
    cases htoken
  · exact isAlphanum_of_isDigit hdigit
  · revert hword
    decide
  · exact isAlphanum_of_isAlpha halpha

/-- What a letter starts cannot stand behind a number. -/
theorem not_mayPrecede_of_starts {x : Float} {c : Char} (h : Starts l t rest)
    (hc : t.head? = some c) (halpha : c.isAlpha = true) (htoken : l.token? position = .ok token) :
    ∃ u, token = some u ∧ ¬ (Token.number x).MayPrecede u := by
  have halphanum := isAlphanum_of_isAlpha halpha
  rcases h.head_cases hc with hblank | ⟨_, hmark⟩ | hdigit | rfl | ⟨_, hnamed⟩
  · rw [not_isBlank_of_isWord (isWord_of_isAlphanum halphanum)] at hblank
    cases hblank
  · rw [halphanum] at hmark
    cases hmark
  · rw [not_isAlpha_of_isDigit hdigit] at halpha
    cases halpha
  · cases halpha
  · -- Behind a number stands an operator or a closing parenthesis.
    have hnot : ∀ {u : Token}, (∀ op, u ≠ .operator op) → u ≠ .closing →
        ¬ (Token.number x).MayPrecede u := fun hop hclosing hmay =>
      hmay.elim (fun h => h.elim hop) hclosing
    rcases hnamed with ⟨f, run, rfl⟩ | ⟨run, rfl⟩ | ⟨first, second, rfl⟩
    · cases htoken
      exact ⟨_, rfl, hnot (fun _ => Token.noConfusion) Token.noConfusion⟩
    · rcases map_eq_ok_iff.1 htoken with ⟨a, _, rfl⟩
      exact ⟨_, rfl, hnot (fun _ => Token.noConfusion) Token.noConfusion⟩
    · rcases map_eq_ok_iff.1 htoken with ⟨r, _, rfl⟩
      exact ⟨_, rfl, hnot (fun _ => Token.noConfusion) Token.noConfusion⟩

end Lexeme

section Boundaries

variable {position : Nat} {depth : Int32} {rest : List Char} {us : List Token}

-- The lexeme behind a run of letters and digits does not go on with the word.
theorem endsRun_of_tokens (htokens : tokensFrom position depth (lexemes rest) = .ok us)
    (hends : EndsRun Char.isAlphanum rest) : EndsRun isWord rest := by
  intro c hc
  refine Bool.eq_false_iff.2 fun hword => ?_
  cases rest with
  | nil => cases hc
  | cons d x =>
      rcases Lexeme.exists_starts d x with ⟨l, behind, hstarts⟩
      rw [lexemes_of_starts hstarts] at htokens
      rcases tokensFrom_cons_eq_ok_iff.1 htokens with ⟨_, token, _, _, htoken, _, _⟩
      -- A token that starts with a word character starts with a letter or a digit.
      have halphanum := Lexeme.isAlphanum_of_starts hstarts htoken c hc hword
      rw [hends c hc] at halphanum
      cases halphanum

-- A number does not end inside a word.
theorem endsRun_of_number {x : Float}
    (htokens : tokensFrom position depth (lexemes rest) = .ok us)
    (hchain : (Token.number x :: us).IsChain Token.MayPrecede)
    (hends : EndsRun Char.isDigit rest) : EndsRun isWord rest := by
  refine endsRun_of_tokens htokens fun c hc => ?_
  rw [Char.isAlphanum, hends c hc, Bool.or_false]
  refine Bool.eq_false_iff.2 fun halpha => ?_
  cases rest with
  | nil => cases hc
  | cons d y =>
      rcases Lexeme.exists_starts d y with ⟨l, behind, hstarts⟩
      rw [lexemes_of_starts hstarts] at htokens
      rcases tokensFrom_cons_eq_ok_iff.1 htokens with ⟨_, token, _, _, htoken, _, rfl⟩
      rcases Lexeme.not_mayPrecede_of_starts hstarts hc halpha htoken with ⟨u, rfl, hnot⟩
      exact hnot (hchain.rel_head? rfl)

end Boundaries

namespace Lexeme

/-- A numeral that is read at all is read as a number. -/
theorem exists_number_of_token? {position : Nat} {whole : List Char} {fraction : Option (List Char)}
    {percent : Bool} {token : Option Token}
    (h : (literal whole fraction percent).token? position = .ok token) :
    ∃ x, token = some (.number x) := by
  rcases map_eq_ok_iff.1 h with ⟨x, _, rfl⟩
  exact ⟨x, rfl⟩

end Lexeme

-- One lexeme, with everything behind it well spelled.
theorem wellSpelled_of_starts {position position' : Nat} {depth : Int32} {l : Lexeme} {t rest : List Char}
    {token : Option Token} {us : List Token} (hstarts : Lexeme.Starts l t rest)
    (htoken : l.token? position = .ok token)
    (hus : tokensFrom position' depth (lexemes rest) = .ok us)
    (hchain : (token.toList ++ us).IsChain Token.MayPrecede) (hrest : WellSpelled rest) :
    WellSpelled t := by
  have hboundary := Lexeme.isAlphanum_of_starts hstarts htoken
  have hpoint : isWord '.' = false := by decide
  have hpercent : isWord '%' = false := by decide
  have hcolon : isWord ':' = false := by decide
  cases hstarts with
  | blank hblank => exact hrest.mark (not_isWord_of_isBlank hblank)
  | @mark c _ _ halphanum _ =>
      refine hrest.mark (Bool.eq_false_iff.2 fun hword => ?_)
      rw [hboundary c rfl hword] at halphanum
      cases halphanum
  | @call f run _ hnamed hends _ =>
      have halpha := Aggregate.isAlpha_of_isNamed hnamed
      refine .word ⟨fun c hc => ?_, ?_⟩ (fun _ => endsRun_of_tokens hus hends) hrest
      · exact isAlphanum_of_isAlpha (halpha c hc)
      · rintro ⟨c, hc, hdigit⟩
        have hmem := List.mem_of_mem_head? hc
        rw [not_isDigit_of_isAlpha (halpha c hmem)] at hdigit
        cases hdigit
  | word halpha hrun hends _ _ =>
      exact .word (spelled_of_letter halpha hrun) (fun _ => endsRun_of_tokens hus hends) hrest
  | @pair c run second _ halpha hrun _ hsecond hends =>
      -- The second run is an address, or the pair would be no token.
      have hpartner : Spelled second := by
        rcases map_eq_ok_iff.1 htoken with ⟨r, hread, _⟩
        have hfirst := isAlphanum_of_mem_cons halpha hrun
        rcases (Lexeme.readPair_eq_ok_iff hfirst hsecond).1 hread with ⟨_, b, _, hb, _⟩
        exact spelled_of_ofChars? hb
      refine .word (spelled_of_letter halpha hrun) (fun _ => endsRun_cons hcolon) (.mark hcolon ?_)
      exact .word hpartner (fun _ => endsRun_of_tokens hus hends) hrest
  | whole hrun hends =>
      rcases Lexeme.exists_number_of_token? htoken with ⟨x, rfl⟩
      exact .word (spelled_of_digits hrun)
        (fun _ => endsRun_of_number hus hchain fun d hd => (hends d hd).1) hrest
  | wholePercent hrun =>
      exact .word (spelled_of_digits hrun) (fun _ => endsRun_cons hpercent) (hrest.mark hpercent)
  | fraction hwhole hfraction hends =>
      rcases Lexeme.exists_number_of_token? htoken with ⟨x, rfl⟩
      refine .word (spelled_of_digits hwhole) (fun _ => endsRun_cons hpoint) (.mark hpoint ?_)
      exact .word (spelled_of_digits hfraction)
        (fun _ => endsRun_of_number hus hchain fun d hd => (hends d hd).1) hrest
  | fractionPercent hwhole hfraction =>
      refine .word (spelled_of_digits hwhole) (fun _ => endsRun_cons hpoint) (.mark hpoint ?_)
      exact .word (spelled_of_digits hfraction) (fun _ => endsRun_cons hpercent)
        (hrest.mark hpercent)
  | twoPoints _ _ => cases htoken

/-- A text whose tokens could be those of a formula is well spelled. -/
theorem wellSpelled_of_tokens {position : Nat} {depth : Int32} {t : List Char} {ts : List Token}
    (htokens : tokensFrom position depth (lexemes t) = .ok ts)
    (hchain : ts.IsChain Token.MayPrecede) : WellSpelled t := by
  -- From the end: whether a number is a whole word is known once what follows it is well spelled.
  induction t using Lexeme.starts_induction generalizing position depth ts with
  | nil => exact wellSpelled_nil
  | lexeme l t rest hstarts ih =>
      rw [lexemes_of_starts hstarts] at htokens
      rcases tokensFrom_cons_eq_ok_iff.1 htokens with ⟨_, token, us, _, htoken, hus, rfl⟩
      exact wellSpelled_of_starts hstarts htoken hus hchain (ih hus hchain.right_of_append)

end Worksheet
