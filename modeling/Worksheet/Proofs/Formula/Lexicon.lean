import Mathlib.Algebra.Group.Nat.Defs
import Mathlib.Data.List.Infix
import Worksheet.Proofs.Formula.Spelling

/-!
# The lexical grammar of formulas

Which texts are formulas, and which tokens they have, said without a scanner. The text behind the
equals sign is divided into lexemes that each have a meaning in front of what follows them, and its
parentheses match. Nothing says in which order the kinds of lexemes are tried or how far each is
read: a word or a number may only end where it cannot go on, and this leaves one way to divide a
text, if there is any.

Parentheses match as they are counted without a limit. The tokens are found with a word of 32 bits
that counts those that are open, and the two counts agree as long as the text opens fewer than
`2 ^ 31` of them.

Two restrictions of the scanner do not appear here. It takes a colon along with the word in front of
it and a percent sign along with the number in front of it. But no lexeme starts with either of
them, so a text in which they are left over cannot be divided at all.

## Main definitions

* `Lexeme.Denotes`: The lexemes that have a meaning, what may follow them, and their tokens.
* `Splits`: A text divided into such lexemes.
* `Balanced`: A text whose parentheses match, with some of them open in front of it.
* `Lexeme.opensAfter?`: How many are open behind a lexeme, counted without a limit.

## Theorems

* `Lexeme.Denotes.starts`, `Lexeme.Starts.denotes`: A lexeme with a meaning is scanned, and scanned
  lexemes have the meaning they are read with.
* `Lexeme.depthAfter?_ofNat`: Counting in a word and without a limit.
* `tokensFrom_lexemes_iff`: The tokens of a text that may follow other text.
* `Formula.parse_eq_ok_iff_splits`: A text is a formula exactly if the grammar says so, with the
  tokens it says.
-/

namespace Worksheet

open Text

/-- What a lexeme stands for in front of the rest of a text. Blanks and commas stand for no token.
    Words and names end where no letter or digit follows, and numbers where they could not go on. -/
inductive Lexeme.Denotes : Lexeme → List Char → Option Token → Prop where
  /-- A blank separates. -/
  | blank {c : Char} {rest : List Char} (hblank : isBlank c = true) : Denotes (.blank c) rest none
  /-- A comma separates as well. -/
  | comma {rest : List Char} : Denotes .comma rest none
  /-- The name of a function, in any case of letters, with a parenthesis behind it. -/
  | call {f : Aggregate} {run rest : List Char} (hnamed : f.isNamed run = true)
      (hends : EndsRun Char.isAlphanum rest) (hopen : (trimStart rest).head? = some '(') :
      Denotes (.call f run) rest (some (.function f))
  /-- The name of a cell. -/
  | cell {run rest : List Char} {a : Address} (haddress : Address.ofChars? run = some a)
      (hends : EndsRun Char.isAlphanum rest) : Denotes (.word run) rest (some (.cell a))
  /-- The names of two cells with a colon between them. -/
  | range {first second rest : List Char} {a b : Address}
      (hfirst : Address.ofChars? first = some a) (hsecond : Address.ofChars? second = some b)
      (hends : EndsRun Char.isAlphanum rest) :
      Denotes (.pair first second) rest (some (.range (Range.spanning a b)))
  /-- An operator. -/
  | operator {op : Operator} {rest : List Char} :
      Denotes (.operator op) rest (some (.operator op))
  /-- An opening parenthesis. -/
  | opening {rest : List Char} : Denotes .opening rest (some .opening)
  /-- A closing parenthesis. -/
  | closing {rest : List Char} : Denotes .closing rest (some .closing)
  /-- Digits with a point or without, at least one, and a hundredth of them before a percent sign. -/
  | literal {whole : List Char} {fraction : Option (List Char)} {percent : Bool} {rest : List Char}
      (hwhole : ∀ c ∈ whole, c.isDigit = true)
      (hfraction : ∀ c ∈ fraction.getD [], c.isDigit = true)
      (hdigit : whole ≠ [] ∨ fraction.getD [] ≠ [])
      (hends : percent = false → ∀ c ∈ rest.head?, c.isDigit = false ∧ c ≠ '.') :
      Denotes (.literal whole fraction percent) rest
        (some (.number (if percent then Decimal.toFloat whole (fraction.getD []) / 100.0
          else Decimal.toFloat whole (fraction.getD []))))

/-- A text divided from left to right into lexemes that have a meaning, and their tokens. -/
inductive Splits : List Char → List Lexeme → List Token → Prop where
  /-- The empty text has no lexemes. -/
  | nil : Splits [] [] []
  /-- A lexeme in front of a divided text. -/
  | cons {l : Lexeme} {rest : List Char} {token : Option Token} {ls : List Lexeme}
      {ts : List Token} (hdenotes : l.Denotes rest token) (hsplits : Splits rest ls ts) :
      Splits (l.chars ++ rest) (l :: ls) (token.toList ++ ts)

/-- A text whose parentheses match, if `depth` of them have been opened in front of it. -/
structure Balanced (depth : Nat) (text : List Char) : Prop where
  /-- No parenthesis is closed that has not been opened. -/
  opened : ∀ p, p <+: text → p.count ')' ≤ depth + p.count '('
  /-- In the end all of them are closed. -/
  closed : depth + text.count '(' = text.count ')'

/-! ## Matching parentheses -/

section Balanced

variable {depth : Nat} {c : Char} {text cs : List Char}

/-- At the end of a text, balance means that nothing is open. -/
theorem balanced_nil_iff : Balanced depth [] ↔ depth = 0 := by
  constructor
  · exact fun h => h.closed
  · rintro rfl
    refine ⟨fun p hp => ?_, rfl⟩
    rw [List.prefix_nil.1 hp]
    exact Nat.le_refl _

-- Both conditions on a text, by what its first character adds to the counts.
theorem balanced_cons_iff : Balanced depth (c :: text) ↔
    (∀ p, p <+: text → (c :: p).count ')' ≤ depth + (c :: p).count '(') ∧
      depth + (c :: text).count '(' = (c :: text).count ')' := by
  constructor
  · intro h
    exact ⟨fun p hp => h.opened _ ((List.prefix_cons_inj c).2 hp), h.closed⟩
  · rintro ⟨hopened, hclosed⟩
    refine ⟨fun p hp => ?_, hclosed⟩
    -- The empty prefix asks for nothing; all others start with the character in front.
    rcases List.prefix_cons_iff.1 hp with rfl | ⟨q, rfl, hq⟩
    · exact Nat.zero_le _
    · exact hopened q hq

/-- An opening parenthesis has to be closed by what follows. -/
theorem balanced_opening_iff : Balanced depth ('(' :: text) ↔ Balanced (depth + 1) text := by
  have hopen : ∀ p : List Char, ('(' :: p).count '(' = p.count '(' + 1 := fun p =>
    List.count_cons_self
  have hclose : ∀ p : List Char, ('(' :: p).count ')' = p.count ')' := fun p =>
    List.count_cons_of_ne (by decide)
  simp only [balanced_cons_iff, hopen, hclose]
  constructor
  · rintro ⟨hopened, hclosed⟩
    refine ⟨fun p hp => ?_, by omega⟩
    have := hopened p hp
    omega
  · intro h
    refine ⟨fun p hp => ?_, ?_⟩
    · have := h.opened p hp
      omega
    · have := h.closed
      omega

/-- A closing parenthesis needs one that is open. -/
theorem balanced_closing_iff :
    Balanced depth (')' :: text) ↔ depth ≠ 0 ∧ Balanced (depth - 1) text := by
  have hopen : ∀ p : List Char, (')' :: p).count '(' = p.count '(' := fun p =>
    List.count_cons_of_ne (by decide)
  have hclose : ∀ p : List Char, (')' :: p).count ')' = p.count ')' + 1 := fun p =>
    List.count_cons_self
  simp only [balanced_cons_iff, hopen, hclose]
  constructor
  · rintro ⟨hopened, hclosed⟩
    -- The closing parenthesis alone is a prefix, so one has been opened.
    have hfirst := hopened [] List.nil_prefix
    rw [List.count_nil, List.count_nil] at hfirst
    refine ⟨by omega, fun p hp => ?_, by omega⟩
    have := hopened p hp
    omega
  · rintro ⟨hpos, h⟩
    refine ⟨fun p hp => ?_, ?_⟩
    · have := h.opened p hp
      omega
    · have := h.closed
      omega

theorem count_opening_eq_zero (h : ∀ c ∈ cs, c ≠ '(' ∧ c ≠ ')') : cs.count '(' = 0 :=
  List.count_eq_zero.2 fun hmem => (h _ hmem).1 rfl

/-- Characters that are no parentheses do not matter for balance. -/
theorem balanced_append_iff (h : ∀ c ∈ cs, c ≠ '(' ∧ c ≠ ')') :
    Balanced depth (cs ++ text) ↔ Balanced depth text := by
  induction cs with
  | nil => rw [List.nil_append]
  | cons c cs ih =>
      have hne := h c List.mem_cons_self
      have hopen : ∀ p : List Char, (c :: p).count '(' = p.count '(' := fun p =>
        List.count_cons_of_ne hne.1
      have hclose : ∀ p : List Char, (c :: p).count ')' = p.count ')' := fun p =>
        List.count_cons_of_ne hne.2
      rw [List.cons_append, balanced_cons_iff, ← ih fun d hd => h d (List.mem_cons_of_mem _ hd)]
      simp only [hopen, hclose]
      exact ⟨fun h => ⟨h.1, h.2⟩, fun h => ⟨h.opened, h.closed⟩⟩

end Balanced

/-! ## Lexemes with a meaning -/

namespace Lexeme

variable {position depth depth' : Nat} {l : Lexeme} {t rest : List Char} {token : Option Token}

/-- A lexeme is read as what it stands for. -/
theorem Denotes.token?_eq (h : l.Denotes rest token) (position : Nat) :
    l.token? position = .ok token := by
  cases h with
  | blank _ | comma | call _ _ _ | operator | opening | closing => rfl
  | cell haddress _ => exact map_eq_ok_iff.2 ⟨_, readWord_eq_ok_iff.2 haddress, rfl⟩
  | range hfirst hsecond _ =>
      refine map_eq_ok_iff.2 ⟨_, ?_, rfl⟩
      exact (readPair_eq_ok_iff (Address.isAlphanum_of_ofChars? hfirst)
        (Address.isAlphanum_of_ofChars? hsecond)).2 ⟨_, _, hfirst, hsecond, rfl⟩
  | @literal whole fraction percent _ _ _ hdigit _ =>
      have hsome : ¬ (whole.isEmpty && (fraction.getD []).isEmpty) = true := by
        rw [Bool.and_eq_true, List.isEmpty_iff, List.isEmpty_iff]
        exact fun hempty => hdigit.elim (fun h => h hempty.1) fun h => h hempty.2
      refine map_eq_ok_iff.2 ⟨_, ?_, rfl⟩
      rw [readLiteral, if_neg hsome]

-- Signs are neither blanks nor parts of words.
theorem ne_sign {c d : Char} (hc : c.isAlphanum = true ∨ isBlank c = true)
    (hd : d.isAlphanum = false ∧ isBlank d = false) : c ≠ d := by
  rintro rfl
  rcases hc with hc | hc
  · rw [hd.1] at hc
    cases hc
  · rw [hd.2] at hc
    cases hc

-- A colon or a percent sign is left over by no lexeme, since none starts with it.
theorem Denotes.exists_cons (h : l.Denotes rest token) :
    ∃ c cs, l.chars = c :: cs ∧ c ≠ ':' ∧ c ≠ '%' := by
  -- No letter and no digit is one of the two signs, which settles all but the marks.
  have halphanum : ∀ {c : Char}, c.isAlphanum = true → c ≠ ':' ∧ c ≠ '%' := fun hc =>
    ⟨ne_sign (Or.inl hc) (by decide), ne_sign (Or.inl hc) (by decide)⟩
  cases h with
  | @blank c _ hblank =>
      exact ⟨c, [], rfl, ne_sign (Or.inr hblank) (by decide), ne_sign (Or.inr hblank) (by decide)⟩
  | comma | opening | closing => exact ⟨_, [], rfl, by decide, by decide⟩
  | @operator op _ =>
      refine ⟨op.char, [], rfl, ?_⟩
      cases op <;> decide
  | @call f run _ hnamed _ _ =>
      cases run with
      | nil => exact absurd rfl (Aggregate.ne_nil_of_isNamed hnamed)
      | cons c cs =>
          have halpha := Aggregate.isAlpha_of_isNamed hnamed c List.mem_cons_self
          exact ⟨c, cs, rfl, halphanum (isAlphanum_of_isAlpha halpha)⟩
  | @cell run _ _ haddress _ =>
      cases run with
      | nil => exact absurd rfl (Address.letters_digits_of_ofChars? haddress).1
      | cons c cs =>
          exact ⟨c, cs, rfl,
            halphanum (Address.isAlphanum_of_ofChars? haddress c List.mem_cons_self)⟩
  | @range first second _ _ _ hfirst _ _ =>
      cases first with
      | nil => exact absurd rfl (Address.letters_digits_of_ofChars? hfirst).1
      | cons c cs =>
          exact ⟨c, cs ++ ':' :: second, rfl,
            halphanum (Address.isAlphanum_of_ofChars? hfirst c List.mem_cons_self)⟩
  | @literal whole fraction percent _ hwhole hfraction hdigit _ =>
      cases whole with
      | cons c cs =>
          have hc := halphanum (isAlphanum_of_isDigit (hwhole c List.mem_cons_self))
          cases fraction with
          | none => exact ⟨c, _, rfl, hc⟩
          | some ds => exact ⟨c, _, rfl, hc⟩
      | nil =>
          cases fraction with
          | none => exact absurd hdigit fun h => h.elim (fun h => h rfl) fun h => h rfl
          -- A numeral without a whole part starts with its point.
          | some ds => exact ⟨'.', _, rfl, by decide, by decide⟩

/-- A lexeme with a meaning is scanned, unless a colon or a percent sign follows. -/
theorem Denotes.starts (h : l.Denotes rest token)
    (hrest : ∀ c ∈ rest.head?, c ≠ ':' ∧ c ≠ '%') : Starts l (l.chars ++ rest) rest := by
  cases h with
  | blank hblank => exact .blank hblank
  | comma => exact @Starts.mark ',' rest (by decide) (by decide) (by decide)
  | opening => exact @Starts.mark '(' rest (by decide) (by decide) (by decide)
  | closing => exact @Starts.mark ')' rest (by decide) (by decide) (by decide)
  | @operator op _ =>
      cases op with
      | add => exact @Starts.mark '+' rest (by decide) (by decide) (by decide)
      | subtract => exact @Starts.mark '-' rest (by decide) (by decide) (by decide)
      | multiply => exact @Starts.mark '*' rest (by decide) (by decide) (by decide)
      | divide => exact @Starts.mark '/' rest (by decide) (by decide) (by decide)
  | call hnamed hends hopen => exact .call hnamed hends hopen
  | @cell run _ _ haddress hends =>
      -- A colon behind the word would make it the first of a range.
      cases run with
      | nil => exact absurd rfl (Address.letters_digits_of_ofChars? haddress).1
      | cons c run =>
          have halphanum := Address.isAlphanum_of_ofChars? haddress
          exact .word (Address.isAlpha_head_of_ofChars? haddress c rfl)
            (fun d hd => halphanum d (List.mem_cons_of_mem _ hd)) hends
            (callee?_of_digit (Address.any_isDigit_of_ofChars? haddress))
            fun _ hcolon => (hrest ':' hcolon).1 rfl
  | @range first second _ _ _ hfirst hsecond hends =>
      cases first with
      | nil => exact absurd rfl (Address.letters_digits_of_ofChars? hfirst).1
      | cons c run =>
          have halphanum := Address.isAlphanum_of_ofChars? hfirst
          rw [chars, List.append_assoc, List.cons_append]
          exact .pair (Address.isAlpha_head_of_ofChars? hfirst c rfl)
            (fun d hd => halphanum d (List.mem_cons_of_mem _ hd))
            (Address.any_isDigit_of_ofChars? hfirst) (Address.isAlphanum_of_ofChars? hsecond) hends
  | @literal whole fraction percent _ hwhole hfraction hdigit hends =>
      -- Whether there is a fraction and whether there is a percent sign tells the four forms apart.
      have hends' : percent = false → ∀ c ∈ rest.head?, c.isDigit = false ∧ c ≠ '.' ∧ c ≠ '%' :=
        fun hpercent c hc => ⟨(hends hpercent c hc).1, (hends hpercent c hc).2, (hrest c hc).2⟩
      cases fraction with
      | none =>
          cases whole with
          | nil => exact absurd hdigit fun h => h.elim (fun h => h rfl) fun h => h rfl
          | cons c run =>
              cases percent with
              | false =>
                  rw [chars, literalChars, if_neg Bool.false_ne_true, List.append_nil]
                  exact .whole hwhole (hends' rfl)
              | true =>
                  rw [chars, literalChars, if_pos rfl, List.append_assoc]
                  exact .wholePercent hwhole
      | some fraction =>
          cases percent with
          | false =>
              rw [chars, literalChars, if_neg Bool.false_ne_true, List.append_nil,
                List.append_assoc]
              exact .fraction hwhole hfraction (hends' rfl)
          | true =>
              rw [chars, literalChars, if_pos rfl, List.append_assoc, List.append_assoc]
              exact .fractionPercent hwhole hfraction

/-- A text that starts with a lexeme is its characters and what is left. -/
theorem Starts.eq_append (h : Starts l t rest) : t = l.chars ++ rest := by
  rcases scan_of_starts h with ⟨c, cs, rfl, hscan⟩
  have hwhole := chars_append_scan c cs
  rw [hscan] at hwhole
  exact hwhole.symm

/-- A sign denotes the token it becomes. -/
theorem denotes_ofChar {c : Char} (htoken : (ofChar c).token? position = .ok token) :
    (ofChar c).Denotes rest token := by
  unfold ofChar at htoken ⊢
  cases hop : Operator.ofChar? c with
  | some op =>
      rw [hop] at htoken
      cases htoken
      exact .operator
  | none =>
      rw [hop] at htoken
      dsimp only at htoken ⊢
      by_cases hopening : c = '('
      · rw [if_pos hopening] at htoken ⊢
        cases htoken
        exact .opening
      rw [if_neg hopening] at htoken ⊢
      by_cases hclosing : c = ')'
      · rw [if_pos hclosing] at htoken ⊢
        cases htoken
        exact .closing
      rw [if_neg hclosing] at htoken ⊢
      by_cases hcomma : c = ','
      · rw [if_pos hcomma] at htoken ⊢
        cases htoken
        exact .comma
      · -- Any other character has no token.
        rw [if_neg hcomma] at htoken
        cases htoken

-- A number that is read has a digit.
theorem denotes_literal {whole : List Char} {fraction : Option (List Char)} {percent : Bool}
    (hwhole : ∀ c ∈ whole, c.isDigit = true) (hfraction : ∀ c ∈ fraction.getD [], c.isDigit = true)
    (hends : percent = false → ∀ c ∈ rest.head?, c.isDigit = false ∧ c ≠ '.')
    (htoken : (literal whole fraction percent).token? position = .ok token) :
    (literal whole fraction percent).Denotes rest token := by
  rcases map_eq_ok_iff.1 htoken with ⟨x, hx, rfl⟩
  unfold readLiteral at hx
  by_cases hempty : (whole.isEmpty && (fraction.getD []).isEmpty) = true
  · rw [if_pos hempty] at hx
    cases hx
  · rw [if_neg hempty] at hx
    cases hx
    rw [Bool.and_eq_true, List.isEmpty_iff, List.isEmpty_iff] at hempty
    exact .literal hwhole hfraction (not_and_or.1 hempty) hends

/-- A scanned lexeme has the meaning it is read with. -/
theorem Starts.denotes (h : Starts l t rest) (htoken : l.token? position = .ok token) :
    l.Denotes rest token := by
  cases h with
  | blank hblank =>
      cases htoken
      exact .blank hblank
  | mark _ _ _ => exact denotes_ofChar htoken
  | call hnamed hends hopen =>
      cases htoken
      exact .call hnamed hends hopen
  | word _ _ hends _ _ =>
      rcases map_eq_ok_iff.1 htoken with ⟨a, ha, rfl⟩
      exact .cell (readWord_eq_ok_iff.1 ha) hends
  | pair halpha hrun _ hsecond hends =>
      rcases map_eq_ok_iff.1 htoken with ⟨r, hr, rfl⟩
      rcases (readPair_eq_ok_iff (isAlphanum_of_mem_cons halpha hrun) hsecond).1 hr with
        ⟨a, b, ha, hb, rfl⟩
      exact .range ha hb hends
  | whole hrun hends =>
      -- A whole number is one without a fraction, so nothing is asked of one.
      exact denotes_literal hrun (fun c hc => absurd hc List.not_mem_nil)
        (fun _ c hc => ⟨(hends c hc).1, (hends c hc).2.1⟩) htoken
  | wholePercent hrun =>
      exact denotes_literal hrun (fun c hc => absurd hc List.not_mem_nil)
        (fun hpercent => absurd hpercent.symm Bool.false_ne_true) htoken
  | fraction hwhole hfraction hends =>
      exact denotes_literal hwhole hfraction
        (fun _ c hc => ⟨(hends c hc).1, (hends c hc).2.1⟩) htoken
  | fractionPercent hwhole hfraction =>
      exact denotes_literal hwhole hfraction
        (fun hpercent => absurd hpercent.symm Bool.false_ne_true) htoken
  | twoPoints _ _ => cases htoken

theorem mem_chars_literal {whole : List Char} {fraction : Option (List Char)} {percent : Bool}
    {c : Char} (h : c ∈ (literal whole fraction percent).chars) :
    c ∈ whole ∨ c ∈ fraction.getD [] ∨ c = '.' ∨ c = '%' := by
  rw [chars, List.mem_append] at h
  rcases h with h | h
  · cases fraction with
    | none => exact Or.inl h
    | some fraction =>
        rw [literalChars, List.mem_append, List.mem_cons] at h
        rcases h with h | h | h
        · exact Or.inl h
        · exact Or.inr (Or.inr (Or.inl h))
        · exact Or.inr (Or.inl h)
  · by_cases hpercent : percent = true
    · rw [if_pos hpercent] at h
      exact Or.inr (Or.inr (Or.inr (List.mem_singleton.1 h)))
    · rw [if_neg hpercent] at h
      exact absurd h List.not_mem_nil

/-- How many parentheses are open behind a lexeme, if none closes too early, counted without a
    limit. -/
def opensAfter? (depth : Nat) : Lexeme → Option Nat
  | opening => some (depth + 1)
  | closing => if depth = 0 then none else some (depth - 1)
  | _ => some depth

/-- One parenthesis that closes, where at most `2 ^ 31` are open. -/
theorem depthAfter?_closing (h : depth < 2 ^ 31) :
    closing.depthAfter? (Int32.ofNat (depth + 1)) = some (Int32.ofNat depth) := by
  have hpred : Int32.ofNat (depth + 1) - 1 = Int32.ofNat depth := by
    rw [Int32.ofNat_add]
    exact Int32.add_sub_cancel ..
  have hnonneg : ¬ Int32.ofNat depth < 0 := by
    rw [Int32.lt_iff_toInt_lt, Int32.toInt_ofNat_of_lt h, Int32.toInt_zero]
    omega
  rw [depthAfter?, hpred, if_neg hnonneg]

/-- Counting in a word comes to the same as counting without a limit, as long as fewer than `2 ^ 31`
    parentheses are open. -/
theorem depthAfter?_ofNat (l : Lexeme) (h : depth < 2 ^ 31) :
    l.depthAfter? (Int32.ofNat depth) = (l.opensAfter? depth).map Int32.ofNat := by
  cases l with
  | opening =>
      rw [depthAfter?, opensAfter?, Option.map_some, Int32.ofNat_add]
      rfl
  | closing =>
      cases depth with
      -- In words one less than zero is negative, which is refused.
      | zero => rfl
      | succ depth =>
          rw [depthAfter?_closing (Nat.lt_of_succ_lt h), opensAfter?,
            if_neg (Nat.succ_ne_zero depth), Option.map_some, Nat.add_sub_cancel]
  | blank _ | comma | call _ _ | word _ | pair _ _ | operator _ | literal _ _ _ | twoPoints _ _
  | stray _ => rfl

theorem ofNat_eq_zero_iff (h : depth < 2 ^ 31) : Int32.ofNat depth = 0 ↔ depth = 0 := by
  rw [← Int32.toInt_inj, Int32.toInt_ofNat_of_lt h, Int32.toInt_zero]
  exact Int.natCast_eq_zero

/-- A lexeme opens no more parentheses than it takes out of the text, so a bound on those that are
    open or still to be opened lasts. -/
theorem add_count_le_of_opensAfter? (h : l.opensAfter? depth = some depth') (rest : List Char) :
    depth' + rest.count '(' ≤ depth + (l.chars ++ rest).count '(' := by
  rw [List.count_append]
  cases l with
  | opening =>
      -- One more is open, and one fewer is to come.
      cases h
      rw [chars, List.count_singleton_self]
      omega
  | closing =>
      rw [opensAfter?] at h
      split at h
      · cases h
      · cases h
        omega
  | blank _ | comma | call _ _ | word _ | pair _ _ | operator _ | literal _ _ _ | twoPoints _ _
  | stray _ =>
      cases h
      omega

-- Only the lexemes that are parentheses have parentheses in them.
theorem Denotes.balanced_iff (h : l.Denotes rest token) : Balanced depth (l.chars ++ rest) ↔
    ∃ depth', l.opensAfter? depth = some depth' ∧ Balanced depth' rest := by
  -- All lexemes but the two parentheses leave what is open as it is.
  have hplain : (∀ c ∈ l.chars, c ≠ '(' ∧ c ≠ ')') → l.opensAfter? depth = some depth →
      (Balanced depth (l.chars ++ rest) ↔
        ∃ depth', l.opensAfter? depth = some depth' ∧ Balanced depth' rest) := by
    intro hchars hdepth
    rw [balanced_append_iff hchars, hdepth]
    simp only [Option.some.injEq, exists_eq_left']
  have halphanum : ∀ {c : Char}, c.isAlphanum = true → c ≠ '(' ∧ c ≠ ')' := fun hc =>
    ⟨ne_sign (Or.inl hc) (by decide), ne_sign (Or.inl hc) (by decide)⟩
  cases h with
  | opening =>
      rw [chars, List.singleton_append, balanced_opening_iff]
      simp only [opensAfter?, Option.some.injEq, exists_eq_left']
  | closing =>
      rw [chars, List.singleton_append, balanced_closing_iff, opensAfter?]
      by_cases hzero : depth = 0
      · simp only [hzero, ne_eq, not_true_eq_false, false_and, if_true, reduceCtorEq,
          exists_false]
      · simp only [hzero, ne_eq, not_false_eq_true, true_and, if_false, Option.some.injEq,
          exists_eq_left']
  | @blank c _ hblank =>
      refine hplain (fun d hd => ?_) rfl
      rw [List.mem_singleton.1 hd]
      exact ⟨ne_sign (Or.inr hblank) (by decide), ne_sign (Or.inr hblank) (by decide)⟩
  | comma =>
      refine hplain (fun c hc => ?_) rfl
      rw [List.mem_singleton.1 hc]
      decide
  | @operator op _ =>
      refine hplain (fun c hc => ?_) rfl
      rw [List.mem_singleton.1 hc]
      cases op <;> decide
  | call hnamed _ _ =>
      refine hplain (fun c hc => ?_) rfl
      exact halphanum (isAlphanum_of_isAlpha (Aggregate.isAlpha_of_isNamed hnamed c hc))
  | cell haddress _ =>
      exact hplain (fun c hc => halphanum (Address.isAlphanum_of_ofChars? haddress c hc)) rfl
  | range hfirst hsecond _ =>
      refine hplain (fun c hc => ?_) rfl
      rcases List.mem_append.1 hc with hc | hc
      · exact halphanum (Address.isAlphanum_of_ofChars? hfirst c hc)
      rcases List.mem_cons.1 hc with rfl | hc
      · decide
      · exact halphanum (Address.isAlphanum_of_ofChars? hsecond c hc)
  | literal hwhole hfraction _ _ =>
      refine hplain (fun c hc => ?_) rfl
      rcases mem_chars_literal hc with hc | hc | rfl | rfl
      · exact halphanum (isAlphanum_of_isDigit (hwhole c hc))
      · exact halphanum (isAlphanum_of_isDigit (hfraction c hc))
      · decide
      · decide

end Lexeme

/-! ## Divided texts -/

section Splits

variable {position depth : Nat} {t : List Char} {ls ls' : List Lexeme} {ts ts' : List Token}

/-- The lexemes of a divided text make it up, each character in one of them. -/
theorem Splits.flatMap_chars (h : Splits t ls ts) : ls.flatMap Lexeme.chars = t := by
  induction h with
  | nil => rfl
  | cons _ _ ih => rw [List.flatMap_cons, ih]

/-- A text that is divided into lexemes starts neither with a colon nor with a percent sign. -/
theorem Splits.head? (h : Splits t ls ts) : ∀ c ∈ t.head?, c ≠ ':' ∧ c ≠ '%' := by
  cases h with
  | nil => exact fun c hc => absurd hc (Option.not_mem_none c)
  | cons hdenotes _ =>
      rcases hdenotes.exists_cons with ⟨d, cs, hchars, hd⟩
      intro c hc
      rw [hchars] at hc
      cases hc
      exact hd

/-- There is one way to divide a text. -/
theorem Splits.lexemes_eq (h : Splits t ls ts) : lexemes t = ls := by
  induction h with
  | nil => rw [lexemes]
  | cons hdenotes hsplits ih => rw [lexemes_of_starts (hdenotes.starts hsplits.head?), ih]

/-- The tokens of a division are read off its lexemes. -/
theorem Splits.tokens_eq (h : Splits t ls ts) :
    (ls.flatMap fun l => (l.token? 0).toOption.join.toList) = ts := by
  induction h with
  | nil => rfl
  | cons hdenotes _ ih =>
      rw [List.flatMap_cons, hdenotes.token?_eq, ih]
      rfl

/-- A text is divided in one way at most. -/
theorem Splits.unique (h : Splits t ls ts) (h' : Splits t ls' ts') : ls' = ls ∧ ts' = ts := by
  have hls : ls' = ls := h'.lexemes_eq.symm.trans h.lexemes_eq
  refine ⟨hls, ?_⟩
  rw [← h'.tokens_eq, hls, h.tokens_eq]

/-- The counter of open parentheses accepts a balanced text, as long as it cannot run over. -/
theorem Splits.tokensFrom_eq (h : Splits t ls ts) (hfew : depth + t.count '(' < 2 ^ 31)
    (hbalanced : Balanced depth t) : tokensFrom position (Int32.ofNat depth) ls = .ok ts := by
  induction h generalizing position depth with
  | nil =>
      rw [balanced_nil_iff.1 hbalanced]
      rfl
  | @cons l rest _ _ _ hdenotes hsplits ih =>
      rcases hdenotes.balanced_iff.1 hbalanced with ⟨depth', hdepth, hrest⟩
      have hword := l.depthAfter?_ofNat (Nat.lt_of_le_of_lt (Nat.le_add_right _ _) hfew)
      rw [hdepth, Option.map_some] at hword
      -- What is open and what is still to come never grow together, so the bound holds to the end.
      have hlast := Lexeme.add_count_le_of_opensAfter? hdepth rest
      exact tokensFrom_cons_eq_ok_iff.2 ⟨_, _, _, hword, hdenotes.token?_eq position,
        ih (Nat.lt_of_le_of_lt hlast hfew) hrest, rfl⟩

/-- The tokens of a text that may follow other text are found exactly if it can be divided and all
    parentheses are matched, provided that fewer than `2 ^ 31` are opened. -/
theorem tokensFrom_lexemes_iff (hfew : depth + t.count '(' < 2 ^ 31) :
    tokensFrom position (Int32.ofNat depth) (lexemes t) = .ok ts ↔
      Splits t (lexemes t) ts ∧ Balanced depth t := by
  constructor
  · intro h
    -- One lexeme at a time; what was read behind it is divided already.
    induction t using Lexeme.starts_induction generalizing position depth ts with
    | nil =>
        rw [lexemes] at h ⊢
        have hzero := (tokensFrom_nil position (Int32.ofNat depth)).1 ⟨ts, h⟩
        rw [Lexeme.ofNat_eq_zero_iff (Nat.lt_of_le_of_lt (Nat.le_add_right _ _) hfew)] at hzero
        rw [hzero] at h ⊢
        cases h
        exact ⟨.nil, balanced_nil_iff.2 rfl⟩
    | lexeme l t rest hstarts ih =>
        rw [lexemes_of_starts hstarts] at h ⊢
        rcases tokensFrom_cons_eq_ok_iff.1 h with ⟨word, token, us, hword, htoken, hus, rfl⟩
        -- The word that counts is a number again, and the bound lasts for the rest of the text.
        rw [l.depthAfter?_ofNat (Nat.lt_of_le_of_lt (Nat.le_add_right _ _) hfew),
          Option.map_eq_some_iff] at hword
        rcases hword with ⟨depth', hdepth, rfl⟩
        rw [hstarts.eq_append] at hfew ⊢
        have hlast := Lexeme.add_count_le_of_opensAfter? hdepth rest
        rcases ih (Nat.lt_of_le_of_lt hlast hfew) hus with ⟨hsplits, hbalanced⟩
        have hdenotes := hstarts.denotes htoken
        exact ⟨.cons hdenotes hsplits, hdenotes.balanced_iff.2 ⟨depth', hdepth, hbalanced⟩⟩
  · rintro ⟨hsplits, hbalanced⟩
    exact hsplits.tokensFrom_eq hfew hbalanced

end Splits

namespace Formula

/-- A body with few enough parentheses is accepted exactly when it is divided into lexemes and
    balanced. -/
theorem ofBody_eq_ok_iff {body : List Char} {f : Formula} (hfew : body.count '(' < 2 ^ 31) :
    ofBody body = .ok f ↔ ∃ ls, Splits body ls f.tokens ∧ Balanced 0 body := by
  have hfew' : 0 + body.count '(' < 2 ^ 31 := by rwa [Nat.zero_add]
  rw [ofBody, map_eq_ok_iff]
  constructor
  · rintro ⟨ts, hts, rfl⟩
    exact ⟨lexemes body, (tokensFrom_lexemes_iff hfew').1 hts⟩
  · rintro ⟨ls, hsplits, hbalanced⟩
    refine ⟨f.tokens, ?_, rfl⟩
    rw [hsplits.lexemes_eq]
    exact hsplits.tokensFrom_eq hfew' hbalanced

-- What is trimmed off and the equals sign can only have parentheses too many.
theorem count_body_le {t body : List Char} (htrim : trim t = '=' :: body) :
    body.count '(' ≤ t.count '(' := by
  rcases exists_trim t with ⟨before, behind, htext, _⟩
  conv_rhs => rw [htext, htrim, List.count_append, List.count_append]
  rw [List.count_cons_of_ne (by decide)]
  omega

/-- A text is a formula exactly if, without the blanks around it, it is an equals sign and then a
    text that can be divided into lexemes with a meaning and has matching parentheses. The tokens of
    the formula are what these lexemes stand for. A text is divided in one way at most, and every
    character of it lies in one of the lexemes. Parentheses are counted in a word of 32 bits, so
    there have to be fewer than `2 ^ 31` that open. -/
theorem parse_eq_ok_iff_splits (s : String) (hfew : s.toList.count '(' < 2 ^ 31) :
    (∀ f, parse s = .ok f ↔
      ∃ body ls, trim s.toList = '=' :: body ∧ Splits body ls f.tokens ∧ Balanced 0 body) ∧
    ∀ body ls ts, Splits body ls ts →
      ls.flatMap Lexeme.chars = body ∧ ∀ ls' ts', Splits body ls' ts' → ls' = ls ∧ ts' = ts := by
  refine ⟨fun f => ?_, fun body ls ts h => ⟨h.flatMap_chars, fun ls' ts' h' => h.unique h'⟩⟩
  -- There are no more parentheses in the body than in the text.
  have hbody : ∀ {body}, trim s.toList = '=' :: body → body.count '(' < 2 ^ 31 := fun htrim =>
    Nat.lt_of_le_of_lt (count_body_le htrim) hfew
  rw [parse, ofChars]
  constructor
  · intro h
    split at h
    · cases h
    · rename_i body htrim
      rcases (ofBody_eq_ok_iff (hbody htrim)).1 h with ⟨ls, hls⟩
      exact ⟨body, ls, htrim, hls⟩
    · cases h
  · rintro ⟨body, ls, htrim, hls⟩
    have hfew := hbody htrim
    rw [htrim]
    exact (ofBody_eq_ok_iff hfew).2 ⟨ls, hls⟩

-- A call with a blank inside and a number without a whole part, divided by the grammar alone.
theorem parse_eq_ok_iff_splits_percent :
    let a : Address := ⟨0, 0, by decide, by decide⟩
    let b : Address := ⟨1, 1, by decide, by decide⟩
    let body := ['S', 'u', 'm', ' ', '(', 'A', '1', ':', 'b', '2', ')', '*', '.', '5', '%']
    let ls : List Lexeme := [.call .sum ['S', 'u', 'm'], .blank ' ', .opening,
      .pair ['A', '1'] ['b', '2'], .closing, .operator .multiply, .literal [] (some ['5']) true]
    let ts : List Token := [.function .sum, .opening, .range (Range.spanning a b), .closing,
      .operator .multiply, .number (Decimal.toFloat [] ['5'] / 100.0)]
    parse " =Sum (A1:b2)*.5%" = .ok ⟨ts⟩ ∧ Splits body ls ts ∧ Balanced 0 body ∧
      ls.flatMap Lexeme.chars = body ∧ ∀ ls' ts', Splits body ls' ts' → ls' = ls ∧ ts' = ts := by
  intro a b body ls ts
  have ha : Address.ofChars? ['A', '1'] = some a := rfl
  have hb : Address.ofChars? ['b', '2'] = some b := rfl
  have hcall : (Lexeme.call .sum ['S', 'u', 'm']).Denotes (body.drop 3)
      (some (.function .sum)) := .call (by decide) (endsRun_cons rfl) (by decide)
  have hrange : (Lexeme.pair ['A', '1'] ['b', '2']).Denotes (body.drop 10)
      (some (.range (Range.spanning a b))) := .range ha hb (endsRun_cons rfl)
  have hoperator : (Lexeme.operator .multiply).Denotes (body.drop 12)
      (some (.operator .multiply)) := .operator
  have hliteral : (Lexeme.literal [] (some ['5']) true).Denotes []
      (some (.number (Decimal.toFloat [] ['5'] / 100.0))) :=
    .literal (fun c hc => absurd hc List.not_mem_nil)
      (fun c hc => List.mem_singleton.1 hc ▸ rfl) (Or.inr (List.cons_ne_nil _ _))
      (fun hpercent => absurd hpercent.symm Bool.false_ne_true)
  -- One constructor per lexeme, in the order of the text.
  have hsplits : Splits body ls ts := by
    refine .cons hcall (.cons (.blank (by decide)) (.cons .opening (.cons hrange ?_)))
    exact .cons .closing (.cons hoperator (.cons hliteral .nil))
  have hbalanced : Balanced 0 body := by
    have hinits : ∀ p ∈ body.inits, p.count ')' ≤ 0 + p.count '(' := by decide
    exact ⟨fun p hp => hinits p ((List.mem_inits p body).2 hp), by decide⟩
  have hfew : " =Sum (A1:b2)*.5%".toList.count '(' < 2 ^ 31 := by decide
  have hgrammar := parse_eq_ok_iff_splits " =Sum (A1:b2)*.5%" hfew
  refine ⟨(hgrammar.1 _).2 ⟨body, ls, ?_, hsplits, hbalanced⟩, hsplits, hbalanced,
    hgrammar.2 body ls ts hsplits⟩
  cbv

end Formula

end Worksheet
