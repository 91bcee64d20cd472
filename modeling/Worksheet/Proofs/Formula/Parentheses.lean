import Worksheet.Proofs.Formula.Lexicon

/-!
# Formulas in parentheses

What stands behind the equals sign of a formula may be put into parentheses: the text stays a
formula, with one more token at each end. No lexeme goes on with a parenthesis, so the text is
divided as it was. Blanks behind the formula were trimmed off and are now enclosed, but they are
lexemes without a token.

Only in very long texts this is not so. The open parentheses are counted in a word of 32 bits, which
becomes negative when `2 ^ 31` of them are open. It recovers if as many close right behind them, but
not from one more, so a text with so many of them is a formula and in parentheses it is none.

That parentheses match is said of a text first. Of its tokens it is said by going through them, with
a count of the parentheses that are open, so that it can also be said of those tokens that are left
when some have been read.

## Main definitions

* `Closes`: Tokens that close the parentheses open in front of them.
* `EndsLexemes`: A text that no word and no number goes on with.
* `Formula.parenthesized`: A formula in a pair of parentheses.

## Theorems

* `Lexeme.Denotes.append`, `Splits.append`: Two texts divided one behind the other.
* `Balanced.append`: The parentheses of two texts.
* `Formula.closes_of_parse`: The tokens of a formula have matching parentheses.
* `Formula.parse_parenthesized`: A formula in parentheses is a formula.
* `Formula.parse_pile`: A text with `2 ^ 31` open parentheses, for which this fails.
-/

namespace Worksheet

open Text

/-- Tokens that close as many parentheses as are open in front of them, besides all those that they
    open themselves, and none too early. -/
inductive Closes : Nat → List Token → Prop where
  /-- No parenthesis is open in the end. -/
  | nil : Closes 0 []
  /-- Behind a parenthesis that opens, one more is open. -/
  | opening {depth : Nat} {ts : List Token} (h : Closes (depth + 1) ts) :
      Closes depth (.opening :: ts)
  /-- Behind a parenthesis that closes, one less is open. -/
  | closing {depth : Nat} {ts : List Token} (h : Closes depth ts) :
      Closes (depth + 1) (.closing :: ts)
  /-- Other tokens neither open nor close any. -/
  | other {depth : Nat} {t : Token} {ts : List Token} (hopening : t ≠ .opening)
      (hclosing : t ≠ .closing) (h : Closes depth ts) : Closes depth (t :: ts)

/-! ## One text behind another -/

/-- A text that words and numbers in front of it do not go on with. -/
def EndsLexemes (text : List Char) : Prop :=
  ∀ c ∈ text.head?, c.isAlphanum = false ∧ c ≠ '.'

section Append

variable {text more : List Char}

theorem forall_head?_append {P : Char → Prop} (h : ∀ c ∈ text.head?, P c)
    (hmore : ∀ c ∈ more.head?, P c) : ∀ c ∈ (text ++ more).head?, P c := by
  cases text with
  | nil => exact hmore
  | cons c rest => exact h

theorem endsLexemes_closing (rest : List Char) : EndsLexemes (')' :: rest) := by
  intro c hc
  cases hc
  decide

/-- Blanks end whatever is in front of them if what is behind them does. -/
theorem endsLexemes_blanks (h : ∀ c ∈ text, isBlank c = true) (hmore : EndsLexemes more) :
    EndsLexemes (text ++ more) := by
  refine forall_head?_append (fun c hc => ?_) hmore
  have hblank := h c (List.mem_of_mem_head? hc)
  exact ⟨not_isAlphanum_of_not_isWord (not_isWord_of_isBlank hblank),
    Lexeme.ne_sign (Or.inr hblank) (by decide)⟩

/-- A lexeme keeps its meaning if the text goes on, but not with more of a word or a number. -/
theorem Lexeme.Denotes.append {l : Lexeme} {rest : List Char} {token : Option Token}
    (h : l.Denotes rest token) (hmore : EndsLexemes more) : l.Denotes (rest ++ more) token := by
  have hword : EndsRun Char.isAlphanum rest → EndsRun Char.isAlphanum (rest ++ more) :=
    fun hends => forall_head?_append hends fun c hc => (hmore c hc).1
  cases h with
  | blank hblank => exact .blank hblank
  | comma => exact .comma
  | call hnamed hends hopen =>
      refine .call hnamed (hword hends) ?_
      -- The parenthesis behind the name ends the blanks in front of it, whatever is added.
      rw [trimStart] at hopen ⊢
      cases hrest : rest.dropWhile isBlank with
      | nil =>
          rw [hrest] at hopen
          cases hopen
      | cons c x =>
          rw [hrest] at hopen
          rw [List.dropWhile_append, hrest]
          exact hopen
  | cell haddress hends => exact .cell haddress (hword hends)
  | range hfirst hsecond hends => exact .range hfirst hsecond (hword hends)
  | operator => exact .operator
  | opening => exact .opening
  | closing => exact .closing
  | literal hwhole hfraction hdigit hends =>
      refine .literal hwhole hfraction hdigit fun hpercent =>
        forall_head?_append (hends hpercent) fun c hc => ⟨?_, (hmore c hc).2⟩
      exact (Bool.or_eq_false_iff.1 (hmore c hc).1).2

/-- Two texts are divided as one if all lexemes of the first end there. -/
theorem Splits.append {ls ms : List Lexeme} {ts us : List Token} (h : Splits text ls ts)
    (hmore : Splits more ms us) (hends : EndsLexemes more) :
    Splits (text ++ more) (ls ++ ms) (ts ++ us) := by
  induction h with
  | nil => exact hmore
  | cons hdenotes _ ih =>
      rw [List.append_assoc, List.append_assoc]
      exact .cons (hdenotes.append hends) ih

/-- Blanks are lexemes without tokens. -/
theorem splits_blanks (h : ∀ c ∈ text, isBlank c = true) :
    Splits text (text.map Lexeme.blank) [] := by
  induction text with
  | nil => exact .nil
  | cons c rest ih =>
      exact .cons (.blank (h c List.mem_cons_self)) (ih fun d hd => h d (List.mem_cons_of_mem _ hd))

/-- A text that closes some of the parentheses open in front of it, and one that closes the rest. -/
theorem Balanced.append {depth further : Nat} (h : Balanced depth text)
    (hmore : Balanced further more) : Balanced (depth + further) (text ++ more) := by
  have hclosed := h.closed
  constructor
  · intro p hp
    -- A prefix ends in the first text, or it is the first text and a prefix of the second.
    rcases List.prefix_or_prefix_of_prefix hp (List.prefix_append text more) with hfirst | ⟨q, rfl⟩
    · have := h.opened p hfirst
      omega
    · have := hmore.opened q ((List.prefix_append_right_inj text).1 hp)
      rw [List.count_append, List.count_append]
      omega
  · have := hmore.closed
    rw [List.count_append, List.count_append]
    omega

end Append

/-- The tokens of a divided text close what the text closes. -/
theorem Splits.closes {depth : Nat} {text : List Char} {ls : List Lexeme} {ts : List Token}
    (h : Splits text ls ts) (hbalanced : Balanced depth text) : Closes depth ts := by
  induction h generalizing depth with
  | nil =>
      rw [balanced_nil_iff.1 hbalanced]
      exact .nil
  | cons hdenotes _ ih =>
      rcases hdenotes.balanced_iff.1 hbalanced with ⟨depth', hdepth, hrest⟩
      have hcloses := ih hrest
      -- Lexemes and tokens change what is open alike; a blank and a comma give no token.
      cases hdenotes with
      | blank _ | comma =>
          cases hdepth
          exact hcloses
      | opening =>
          cases hdepth
          exact .opening hcloses
      | closing =>
          cases depth with
          | zero => cases hdepth
          | succ depth =>
              rw [Lexeme.opensAfter?, if_neg (Nat.succ_ne_zero depth)] at hdepth
              cases hdepth
              exact .closing hcloses
      | call _ _ _ | cell _ _ | range _ _ _ | operator | literal _ _ _ _ =>
          cases hdepth
          exact .other Token.noConfusion Token.noConfusion hcloses

namespace Formula

/-- A formula in a pair of parentheses. -/
def parenthesized (f : Formula) : Formula := ⟨.opening :: (f.tokens ++ [.closing])⟩

variable {f : Formula} {body : String}

/-- Behind the equals sign stands what is read as the formula, and then nothing but blanks. -/
theorem exists_core_of_parse (hfew : body.toList.count '(' < 2 ^ 31)
    (hparse : parse ("=" ++ body) = .ok f) : ∃ core blanks ls,
    body.toList = core ++ blanks ∧ (∀ c ∈ blanks, isBlank c = true) ∧
      Splits core ls f.tokens ∧ Balanced 0 core := by
  rw [parse, ofChars, String.toList_append] at hparse
  rcases exists_trim ("=".toList ++ body.toList) with ⟨before, behind, htext, hbefore, hbehind, _⟩
  split at hparse
  · cases hparse
  · rename_i core htrim
    have hsign : ("=".toList ++ body.toList).count '(' = body.toList.count '(' :=
      List.count_cons_of_ne (by decide)
    have hcore := count_body_le htrim
    rw [hsign] at hcore
    rcases (ofBody_eq_ok_iff (Nat.lt_of_le_of_lt hcore hfew)).1 hparse with
      ⟨ls, hsplits, hbalanced⟩
    rw [htrim] at htext
    cases before with
    | nil => exact ⟨core, behind, ls, (List.cons.inj htext).2, hbehind, hsplits, hbalanced⟩
    | cons c rest =>
        -- The equals sign would be a blank.
        have hblank := hbefore c List.mem_cons_self
        rw [← (List.cons.inj htext).1] at hblank
        cases hblank
  · cases hparse

/-- The tokens of a formula close what they open, if it can be counted. -/
theorem closes_of_parse (hfew : body.toList.count '(' < 2 ^ 31)
    (hparse : parse ("=" ++ body) = .ok f) : Closes 0 f.tokens := by
  rcases exists_core_of_parse hfew hparse with ⟨_, _, _, _, _, hsplits, hbalanced⟩
  exact hsplits.closes hbalanced

/-- A formula stays one in parentheses, if one more of them can still be counted. -/
theorem parse_parenthesized (hfew : body.toList.count '(' + 1 < 2 ^ 31)
    (hparse : parse ("=" ++ body) = .ok f) :
    parse ("=(" ++ body ++ ")") = .ok f.parenthesized := by
  rcases exists_core_of_parse (Nat.lt_of_succ_lt hfew) hparse with
    ⟨core, blanks, ls, hbody, hblanks, hsplits, hbalanced⟩
  have hplain : ∀ c ∈ blanks, c ≠ '(' ∧ c ≠ ')' := fun c hc =>
    ⟨Lexeme.ne_sign (Or.inr (hblanks c hc)) (by decide),
      Lexeme.ne_sign (Or.inr (hblanks c hc)) (by decide)⟩
  have hclosing : Splits [')'] [.closing] [.closing] := .cons .closing .nil
  have hends : EndsLexemes [')'] := endsLexemes_closing []
  -- The added parenthesis stands behind the blanks, apart from what is in front of them.
  have hbehind := hsplits.append ((splits_blanks hblanks).append hclosing hends)
    (endsLexemes_blanks hblanks hends)
  have hend : Balanced 1 (blanks ++ [')']) :=
    (balanced_append_iff hplain).2 (balanced_closing_iff.2 ⟨by decide, balanced_nil_iff.2 rfl⟩)
  -- There is one more opening than before, and the bound leaves room for it.
  have hcount : ('(' :: (core ++ (blanks ++ [')']))).count '(' < 2 ^ 31 := by
    rw [hbody, List.count_append, count_opening_eq_zero hplain] at hfew
    rw [List.count_cons_self, List.count_append, List.count_append, count_opening_eq_zero hplain]
    exact hfew
  have hread : ofBody ('(' :: (core ++ (blanks ++ [')']))) = .ok f.parenthesized :=
    (ofBody_eq_ok_iff hcount).2
      ⟨_, .cons .opening hbehind, balanced_opening_iff.2 (hbalanced.append hend)⟩
  have htext : ("=(" ++ body ++ ")").toList = '=' :: ('(' :: (core ++ blanks) ++ [')']) := by
    simp only [String.toList_append, hbody]
    rfl
  rw [parse, htext, ofChars, trim_eq_self_of_ends (by decide) (by decide)]
  simpa only [List.cons_append, List.append_assoc] using hread

end Formula

/-! ## More parentheses than the word can count -/

section Piles

variable {position n : Nat} {depth : Int32} {t : List Char} {ls : List Lexeme} {ts : List Token}

/-- A run of parentheses that open is read to its end, and the word counts it. -/
theorem tokensFrom_openings (n : Nat) (ls : List Lexeme) :
    tokensFrom position depth (List.replicate n .opening ++ ls) =
      (tokensFrom (position + n) (depth + Int32.ofNat n) ls).map
        (List.replicate n .opening ++ ·) := by
  induction n generalizing position depth with
  | zero =>
      have hzero : depth + Int32.ofNat 0 = depth := Int32.add_zero depth
      rw [List.replicate_zero, List.nil_append, Nat.add_zero, hzero]
      cases tokensFrom position depth ls <;> rfl
  | succ n ih =>
      -- The counter goes up by one in words, which is sound even where it runs over.
      have hword : depth + 1 + Int32.ofNat n = depth + Int32.ofNat (n + 1) := by
        rw [Int32.ofNat_add, Int32.add_assoc, Int32.add_comm 1]
        rfl
      have hplace : position + 1 + n = position + (n + 1) := by omega
      rw [List.replicate_succ, List.cons_append, tokensFrom, Lexeme.depthAfter?]
      change (tokensFrom (position + 1) (depth + 1) (List.replicate n .opening ++ ls) >>=
        fun us => pure (.opening :: us)) = _
      rw [ih, hword, hplace]
      cases tokensFrom (position + (n + 1)) (depth + Int32.ofNat (n + 1)) ls <;> rfl

/-- As many parentheses as the word has counted are closed again. -/
theorem tokensFrom_closings (h : n ≤ 2 ^ 31) :
    tokensFrom position (Int32.ofNat n) (List.replicate n .closing) =
      .ok (List.replicate n .closing) := by
  induction n generalizing position with
  | zero => rfl
  | succ n ih =>
      rw [List.replicate_succ]
      exact tokensFrom_cons_eq_ok_iff.2
        ⟨_, _, _, Lexeme.depthAfter?_closing h, rfl, ih (Nat.le_of_succ_le h), rfl⟩

/-- Opening parentheses in front of a text are lexemes and tokens of their own. -/
theorem splits_openings (n : Nat) (h : Splits t ls ts) :
    Splits (List.replicate n '(' ++ t) (List.replicate n .opening ++ ls)
      (List.replicate n .opening ++ ts) := by
  induction n with
  | zero => exact h
  | succ n ih => exact .cons .opening ih

/-- A run of closing parentheses is divided into them. -/
theorem splits_closings (n : Nat) :
    Splits (List.replicate n ')') (List.replicate n .closing) (List.replicate n .closing) := by
  induction n with
  | zero => exact .nil
  | succ n ih => exact .cons .closing ih

end Piles

namespace Formula

/-- Of a number in some parentheses and more of them behind it, those that open are read. Whether
    those that close are depends on what the word has come to. -/
theorem ofBody_pile (k n : Nat) :
    ofBody (List.replicate k '(' ++ '1' :: (List.replicate (n + 1) '(' ++
        List.replicate (k + (n + 1)) ')')) =
      (tokensFrom (k + 1 + (n + 1)) (Int32.ofNat (k + (n + 1)))
          (List.replicate (k + (n + 1)) .closing)).map fun ts =>
        ⟨List.replicate k .opening ++ .number (Decimal.toFloat ['1'] []) ::
          (List.replicate (n + 1) .opening ++ ts)⟩ := by
  have hliteral : (Lexeme.literal ['1'] none false).Denotes
      (List.replicate (n + 1) '(' ++ List.replicate (k + (n + 1)) ')')
      (some (.number (Decimal.toFloat ['1'] []))) := by
    refine .literal (fun c hc => ?_) (fun c hc => absurd hc List.not_mem_nil)
      (Or.inl (List.cons_ne_nil _ _)) fun _ c hc => ?_
    · rw [List.mem_singleton.1 hc]
      rfl
    · rw [List.replicate_succ] at hc
      cases hc
      exact ⟨rfl, by decide⟩
  -- The text in lexemes: openings, the number, openings, and as many closings.
  have hsplits := splits_openings k (.cons hliteral
    (splits_openings (n + 1) (splits_closings (k + (n + 1)))))
  have hlexemes : lexemes (List.replicate k '(' ++ '1' :: (List.replicate (n + 1) '(' ++
      List.replicate (k + (n + 1)) ')')) = List.replicate k .opening ++
        .literal ['1'] none false :: (List.replicate (n + 1) .opening ++
          List.replicate (k + (n + 1)) .closing) := hsplits.lexemes_eq
  have hnumber : ∀ (position : Nat) (depth : Int32) (ls : List Lexeme),
      tokensFrom position depth (.literal ['1'] none false :: ls) =
        (tokensFrom (position + 1) depth ls).map (.number (Decimal.toFloat ['1'] []) :: ·) := by
    intro position depth ls
    rw [tokensFrom, Lexeme.depthAfter?]
    · change (tokensFrom (position + 1) depth ls >>= fun us =>
        pure (.number (Decimal.toFloat ['1'] []) :: us)) = _
      cases tokensFrom (position + 1) depth ls <;> rfl
    all_goals exact Lexeme.noConfusion
  -- The counter may already have run over here; what it holds is the word of the sum all the same.
  have hword : (0 : Int32) + Int32.ofNat k + Int32.ofNat (n + 1) = Int32.ofNat (k + (n + 1)) := by
    rw [Int32.zero_add, ← Int32.ofNat_add]
  rw [ofBody, hlexemes, tokensFrom_openings, hnumber, tokensFrom_openings, hword, Nat.zero_add]
  cases tokensFrom (k + 1 + (n + 1)) (Int32.ofNat (k + (n + 1)))
    (List.replicate (k + (n + 1)) .closing) <;> rfl

/-- The word comes back from `2 ^ 31` parentheses that open, and from one more of them it does not.
    It has passed its greatest number then and takes the first one that closes for one too many. -/
theorem parse_pile {n : Nat} {body : String} (hn : n + 1 = 2 ^ 31)
    (hbody : body.toList = '1' :: (List.replicate (n + 1) '(' ++ List.replicate (n + 1) ')')) :
    parse ("=" ++ body) = .ok ⟨.number (Decimal.toFloat ['1'] []) ::
        (List.replicate (n + 1) .opening ++ List.replicate (n + 1) .closing)⟩ ∧
      parse ("=(" ++ body ++ ")") = .error (.unmatchedClosing (2 ^ 31 + 3)) := by
  constructor
  · -- As many as the counter wraps around at: it comes down to zero again with the last closing.
    have hpile := ofBody_pile 0 n
    rw [Nat.zero_add, tokensFrom_closings (Nat.le_of_eq hn)] at hpile
    have htext : ("=" ++ body).toList =
        '=' :: (('1' :: (List.replicate (n + 1) '(' ++ List.replicate n ')')) ++ [')']) := by
      rw [String.toList_append, hbody, List.cons_append, List.append_assoc, ← List.replicate_succ']
      rfl
    rw [parse, htext, ofChars, trim_eq_self_of_ends (by decide) (by decide)]
    rw [List.cons_append, List.append_assoc, ← List.replicate_succ']
    exact hpile
  · -- One more, and the counter is past the greatest number, where the first closing finds it
    -- negative.
    have hpile := ofBody_pile 1 n
    have hover : tokensFrom (1 + 1 + (n + 1)) (Int32.ofNat (1 + (n + 1)))
        (List.replicate (1 + (n + 1)) .closing) = .error (.unmatchedClosing (2 ^ 31 + 3)) := by
      rw [hn, Nat.add_comm 1 (2 ^ 31), List.replicate_succ, tokensFrom]
      rfl
    rw [hover] at hpile
    have htext : ("=(" ++ body ++ ")").toList =
        '=' :: (('(' :: '1' :: (List.replicate (n + 1) '(' ++ List.replicate (n + 1) ')')) ++
          [')']) := by
      rw [String.toList_append, String.toList_append, hbody]
      rfl
    rw [parse, htext, ofChars, trim_eq_self_of_ends (by decide) (by decide)]
    rw [List.cons_append, List.cons_append, List.append_assoc, ← List.replicate_succ',
      Nat.add_comm (n + 1) 1]
    exact hpile

end Formula

end Worksheet
