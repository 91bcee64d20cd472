import Worksheet.Proofs.Formula.Grammar

/-!
# Reading follows the grammar

Reading tokens agrees with the rules of the grammar both ways. What the rules derive is read as
exactly that tree, whatever follows, as long as the level does not go on there. And a tree without
gaps comes from the tokens that were read by the rules, while a tree with gaps comes from no
derivation at all. So a list of tokens has at most one tree.

Whether a tree has gaps or not, the cells and ranges in it are those of the tokens it was read from.
That does not need the rules, but it is proved along with them, since both follow the reader through
its five functions. An operand may hold a sum in parentheses, so the induction is on the number of
tokens, and the binary levels take what they need of their operands as a hypothesis.

## Main definitions

* `Parse.parts`: A reading without the proof that it only removes tokens.
* `Parse.GoesOn`: An operator of a level stands next.
* `Parse.Reads`, `Parse.ReadsOn`: What a reading, and the rest of one, has to satisfy.
* `Parse.ReadsAs`: What it means that tokens are read as a tree.

## Theorems

* `Parse.reads_sum`: Reading follows the rules.
* `Parse.readsAs_of_derives`: What the rules derive is read as derived.
* `Expression.ofTokens_of_derives`, `Expression.derives_ofTokens`: The tree of all tokens is the one
  that is derived, if it has no gaps.
* `Expression.token_mem_of_mem_arguments`: A tree names only what its tokens name.
-/

namespace Worksheet

namespace Parse

open Grammar

/-- What was read and what is left, without the proof that nothing was added. -/
def parts {ts : List Token} (p : Parse ts) : Expression × List Token := (p.expression, p.rest)

/-- The operators of a level stand at the start of the tokens. -/
def GoesOn (level : Level) (ts : List Token) : Prop :=
  ∃ op rest, ts = .operator op :: rest ∧ op.level = level

theorem not_goesOn_nil (level : Level) : ¬ GoesOn level [] := by
  rintro ⟨op, rest, h, _⟩
  cases h

-- What each function of the reader does, one form of its tokens at a time.
theorem parts_operand_number (x : Float) (rest : List Token) :
    (operand (.number x :: rest)).parts = (.number x, rest) := by
  rw [operand, parts]

theorem parts_operand_cell (a : Address) (rest : List Token) :
    (operand (.cell a :: rest)).parts = (.cell a, rest) := by
  rw [operand, parts]

/-- The sign belongs to the operand behind it, whatever follows that. -/
theorem parts_operand_negation (rest : List Token) :
    (operand (.operator .subtract :: rest)).parts =
      (.negation (operand rest).parts.1, (operand rest).parts.2) := by
  rw [operand]
  rfl

/-- A group is the sum inside, if the parenthesis behind it is there. -/
theorem parts_operand_group {rest behind : List Token} {e : Expression}
    (h : (sum rest).parts = (e, .closing :: behind)) :
    (operand (.opening :: rest)).parts = (e, behind) := by
  have he : (sum rest).expression = e := congrArg Prod.fst h
  have hrest : (sum rest).rest = .closing :: behind := congrArg Prod.snd h
  rw [operand]
  split
  · rename_i found hfound
    rw [hrest] at hfound
    cases hfound
    rw [parts, he]
  · rename_i hne
    exact absurd hrest (hne behind)

/-- Without that parenthesis there is a gap behind the sum. -/
theorem parts_operand_broken {rest : List Token}
    (h : ∀ behind, (sum rest).parts.2 ≠ .closing :: behind) :
    (operand (.opening :: rest)).parts =
      (.broken (sum rest).parts.1, (sum rest).parts.2) := by
  rw [operand]
  split
  · rename_i found hfound
    exact absurd hfound (h found)
  · rfl

theorem parts_operand_call (f : Aggregate) (rest : List Token) :
    (operand (.function f :: rest)).parts = (call f rest).parts := by
  rw [operand]
  rfl

/-- An operator of the level takes one operand, and reading goes on with both as one. -/
theorem parts_moreFactors {left : Expression} {op : Operator} {rest : List Token}
    (h : op.level = .product) :
    (moreFactors left (.operator op :: rest)).parts =
      (moreFactors (.binary op left (operand rest).parts.1) (operand rest).parts.2).parts := by
  cases op with
  | add => cases h
  | subtract => cases h
  | multiply =>
      rw [moreFactors]
      rfl
  | divide =>
      rw [moreFactors]
      rfl

/-- Any other token is left to the level above. -/
theorem parts_moreFactors_end {left : Expression} {ts : List Token}
    (h : ¬ GoesOn .product ts) : (moreFactors left ts).parts = (left, ts) := by
  rw [moreFactors.eq_3 left ts (fun rest he => h ⟨_, rest, he, rfl⟩)
    (fun rest he => h ⟨_, rest, he, rfl⟩), parts]

/-- A product is an operand and what goes on behind it. -/
theorem parts_product (ts : List Token) :
    (product ts).parts = (moreFactors (operand ts).parts.1 (operand ts).parts.2).parts := by
  rw [product]
  rfl

/-- The same one level higher, where operands are products. -/
theorem parts_moreTerms {left : Expression} {op : Operator} {rest : List Token}
    (h : op.level = .sum) :
    (moreTerms left (.operator op :: rest)).parts =
      (moreTerms (.binary op left (product rest).parts.1) (product rest).parts.2).parts := by
  cases op with
  | add =>
      rw [moreTerms]
      rfl
  | subtract =>
      rw [moreTerms]
      rfl
  | multiply => cases h
  | divide => cases h

theorem parts_moreTerms_end {left : Expression} {ts : List Token}
    (h : ¬ GoesOn .sum ts) : (moreTerms left ts).parts = (left, ts) := by
  rw [moreTerms.eq_3 left ts (fun rest he => h ⟨_, rest, he, rfl⟩)
    (fun rest he => h ⟨_, rest, he, rfl⟩), parts]

/-- A sum is a product and what goes on behind it. -/
theorem parts_sum (ts : List Token) :
    (sum ts).parts = (moreTerms (product ts).parts.1 (product ts).parts.2).parts := by
  rw [sum]
  rfl

/-- A reading at a level: it takes tokens from the front, names what they name, and if it leaves no
    gaps it is derived from them. -/
def Reads (level : Level) (ts : List Token) (p : Expression × List Token) : Prop :=
  ∃ used, ts = used ++ p.2 ∧ used.filterMap Token.argument? = p.1.arguments ∧
    (p.1.isComplete = true → Derives level used p.1)

/-- A reading that goes on from what was read before as `left`. -/
def ReadsOn (level : Level) (left : Expression) (ts : List Token)
    (p : Expression × List Token) : Prop :=
  ∃ used, ts = used ++ p.2 ∧
    left.arguments ++ used.filterMap Token.argument? = p.1.arguments ∧
    (p.1.isComplete = true → left.isComplete = true ∧
      ∀ before, Derives level before left → Derives level (before ++ used) p.1)

-- Where no operand can start, a gap is left and no token is taken.
theorem reads_missing (level : Level) (ts : List Token) : Reads level ts (.missing, ts) := by
  refine ⟨[], rfl, rfl, fun h => ?_⟩
  cases h

/-- Reading may stop without taking anything. -/
theorem readsOn_end (level : Level) (left : Expression) (ts : List Token) :
    ReadsOn level left ts (left, ts) := by
  refine ⟨[], rfl, List.append_nil _, fun h => ⟨h, fun before hbefore => ?_⟩⟩
  rw [List.append_nil]
  exact hbefore

/-- One more operator: what is read behind it becomes its right operand. -/
theorem readsOn_operator {level lower : Level} {left right : Expression} {op : Operator}
    {rest rest' : List Token} {p : Expression × List Token}
    (hrule : ∀ {ts us : List Token}, Derives level ts left → Derives lower us right →
      Derives level (ts ++ .operator op :: us) (.binary op left right))
    (hright : Reads lower rest (right, rest'))
    (hon : ReadsOn level (.binary op left right) rest' p) :
    ReadsOn level left (.operator op :: rest) p := by
  -- The tree so far becomes a left operand, so a gap in it or behind the operator stays a gap.
  rcases hright with ⟨usedRight, hrest, hargsRight, hderRight⟩
  rcases hon with ⟨usedOn, hrest', hargsOn, hderOn⟩
  simp only at hrest hargsRight hderRight
  refine ⟨.operator op :: usedRight ++ usedOn, ?_, ?_, fun hcomplete => ?_⟩
  · rw [hrest, hrest', List.append_assoc, List.cons_append]
  · rw [← hargsOn, List.filterMap_append, List.filterMap_cons_none rfl, hargsRight,
      Expression.arguments, List.append_assoc]
  · rcases hderOn hcomplete with ⟨hbinary, hafter⟩
    rw [Expression.isComplete, Bool.and_eq_true] at hbinary
    refine ⟨hbinary.1, fun before hbefore => ?_⟩
    have h := hafter _ (hrule hbefore (hderRight hbinary.2))
    rw [List.append_assoc] at h
    exact h

/-- What was read first and what goes on from it make up one reading. -/
theorem reads_of_readsOn {level : Level} {ts : List Token} {q p : Expression × List Token}
    (hfirst : Reads level ts q) (hon : ReadsOn level q.1 q.2 p) : Reads level ts p := by
  rcases hfirst with ⟨usedFirst, hts, hargsFirst, hderFirst⟩
  rcases hon with ⟨usedOn, hrest, hargsOn, hderOn⟩
  refine ⟨usedFirst ++ usedOn, ?_, ?_, fun hcomplete => ?_⟩
  · rw [hts, hrest, List.append_assoc]
  · rw [List.filterMap_append, hargsFirst, hargsOn]
  · rcases hderOn hcomplete with ⟨hleft, hafter⟩
    exact hafter _ (hderFirst hleft)

/-- What reads one level reads a level that contains it. -/
theorem reads_mono {lower level : Level} {ts : List Token} {p : Expression × List Token}
    (hrule : ∀ {us : List Token} {e : Expression}, Derives lower us e → Derives level us e)
    (h : Reads lower ts p) : Reads level ts p := by
  rcases h with ⟨used, hts, hargs, hder⟩
  exact ⟨used, hts, hargs, fun hcomplete => hrule (hder hcomplete)⟩

/-- Reading arguments takes their tokens from the front and nothing else. -/
theorem arguments_eq (ts : List Token) :
    ts = (arguments ts).1.map Argument.token ++ (arguments ts).2 := by
  fun_induction arguments ts with
  | case1 a ts ih => exact congrArg (Token.cell a :: ·) ih
  | case2 r ts ih => exact congrArg (Token.range r :: ·) ih
  | case3 ts => rfl

/-- A call reads its name, and its list of arguments if that ends as it should. -/
theorem reads_call (f : Aggregate) (ts : List Token) :
    Reads .operand (.function f :: ts) (call f ts).parts := by
  unfold call
  split
  · rename_i ts
    have hts := arguments_eq ts
    split
    · -- The call is closed: what was read is a call, and its tokens are told.
      rename_i args rest hargs
      rw [hargs] at hts
      refine ⟨.function f :: .opening :: (args.map Argument.token ++ [.closing]), ?_, ?_,
        fun _ => .call f args⟩
      · simp only [parts, List.cons_append, List.append_assoc, List.nil_append, ← hts]
      · exact arguments_of_derives (.call f args)
    · -- It is not closed, so nothing is said beyond what was read.
      rename_i args rest _ hargs
      rw [hargs] at hts
      refine ⟨.function f :: .opening :: args.map Argument.token, ?_, ?_, Bool.noConfusion⟩
      · simp only [parts, List.cons_append, ← hts]
      · rw [List.filterMap_cons_none rfl, List.filterMap_cons_none rfl,
          filterMap_argument?_map_token]
        rfl
  · exact ⟨[.function f], rfl, rfl, Bool.noConfusion⟩

/-- A binary level: operators of the level, each with an operand behind it, for as long as there are
    any. -/
theorem readsOn_loop {level lower : Level}
    (more : Expression → List Token → Expression × List Token)
    (next : List Token → Expression × List Token) {n : Nat}
    (hrule : ∀ {op : Operator} {left right : Expression} {ts us : List Token}, op.level = level →
      Derives level ts left → Derives lower us right →
        Derives level (ts ++ .operator op :: us) (.binary op left right))
    (hend : ∀ left ts, ¬ GoesOn level ts → more left ts = (left, ts))
    (hstep : ∀ left op rest, op.level = level →
      more left (.operator op :: rest) = more (.binary op left (next rest).1) (next rest).2)
    (hlength : ∀ ts, (next ts).2.length ≤ ts.length)
    (hnext : ∀ ts, ts.length < n → Reads lower ts (next ts)) :
    ∀ (k : Nat) (left : Expression) (ts : List Token), ts.length ≤ k → k ≤ n →
      ReadsOn level left ts (more left ts) := by
  intro k
  -- An operand removes no operator, so the length of what is left bounds the rounds.
  induction k with
  | zero =>
      intro left ts hts _
      rw [List.eq_nil_of_length_eq_zero (Nat.le_zero.1 hts), hend _ _ (not_goesOn_nil level)]
      exact readsOn_end _ _ _
  | succ k ih =>
      intro left ts hts hk
      by_cases hon : GoesOn level ts
      · rcases hon with ⟨op, rest, rfl, hlevel⟩
        rw [List.length_cons] at hts
        have hrest := hlength rest
        rw [hstep left op rest hlevel]
        exact readsOn_operator (hrule hlevel) (hnext rest (by omega))
          (ih _ _ (Nat.le_trans hrest (by omega)) (by omega))
      · rw [hend left ts hon]
        exact readsOn_end _ _ _

/-- Loops shorten their tokens with each turn, so the induction is on their number, with operands
    known to be read from fewer tokens. -/
theorem reads_moreFactors {n : Nat}
    (hoperand : ∀ ts, ts.length < n → Reads .operand ts (operand ts).parts) :
    ∀ (k : Nat) (left : Expression) (ts : List Token), ts.length ≤ k → k ≤ n →
      ReadsOn .product left ts (moreFactors left ts).parts :=
  readsOn_loop (fun left ts => (moreFactors left ts).parts) (fun ts => (operand ts).parts)
    (fun hlevel hl hr => .factor _ hlevel hl hr) (fun _ _ => parts_moreFactors_end)
    (fun _ _ _ => parts_moreFactors) (fun ts => (operand ts).length_le) hoperand

/-- The same loop over products. -/
theorem reads_moreTerms {n : Nat}
    (hproduct : ∀ ts, ts.length < n → Reads .product ts (product ts).parts) :
    ∀ (k : Nat) (left : Expression) (ts : List Token), ts.length ≤ k → k ≤ n →
      ReadsOn .sum left ts (moreTerms left ts).parts :=
  readsOn_loop (fun left ts => (moreTerms left ts).parts) (fun ts => (product ts).parts)
    (fun hlevel hl hr => .term _ hlevel hl hr) (fun _ _ => parts_moreTerms_end)
    (fun _ _ _ => parts_moreTerms) (fun ts => (product ts).length_le) hproduct

/-- A product of operands reads as the grammar says. -/
theorem reads_product {n : Nat}
    (hoperand : ∀ ts, ts.length ≤ n → Reads .operand ts (operand ts).parts)
    (ts : List Token) (hts : ts.length ≤ n) : Reads .product ts (product ts).parts := by
  rw [parts_product]
  refine reads_of_readsOn (reads_mono .ofOperand (hoperand ts hts)) ?_
  exact reads_moreFactors (fun us hus => hoperand us (Nat.le_of_lt hus)) n _ _
    (Nat.le_trans (operand ts).length_le hts) (Nat.le_refl n)

/-- So does a sum of such products. -/
theorem reads_sum_of {n : Nat}
    (hoperand : ∀ ts, ts.length ≤ n → Reads .operand ts (operand ts).parts)
    (ts : List Token) (hts : ts.length ≤ n) : Reads .sum ts (sum ts).parts := by
  rw [parts_sum]
  refine reads_of_readsOn (reads_mono .ofProduct (reads_product hoperand ts hts)) ?_
  exact reads_moreTerms (fun us hus => reads_product hoperand us (Nat.le_of_lt hus)) n _ _
    (Nat.le_trans (product ts).length_le hts) (Nat.le_refl n)

/-- Operands contain sums of fewer tokens, so all three levels are read by one induction. -/
theorem reads_operand (n : Nat) :
    ∀ ts : List Token, ts.length ≤ n → Reads .operand ts (operand ts).parts := by
  -- On the number of tokens, since parentheses hold a sum and a sum reads operands again.
  induction n with
  | zero =>
      intro ts hts
      rw [List.eq_nil_of_length_eq_zero (Nat.le_zero.1 hts)]
      unfold operand
      exact reads_missing _ _
  | succ n ih =>
      intro ts hts
      cases ts with
      | nil =>
          unfold operand
          exact reads_missing _ _
      | cons t rest =>
          rw [List.length_cons] at hts
          have hrest : rest.length ≤ n := by omega
          cases t with
          | number x =>
              rw [parts_operand_number]
              exact ⟨[.number x], rfl, rfl, fun _ => .number x⟩
          | cell a =>
              rw [parts_operand_cell]
              exact ⟨[.cell a], rfl, rfl, fun _ => .cell a⟩
          | range r =>
              unfold operand
              exact reads_missing _ _
          | function f =>
              rw [parts_operand_call]
              exact reads_call f rest
          | operator op =>
              cases op with
              | subtract =>
                  rcases ih rest hrest with ⟨used, hused, hargs, hder⟩
                  rw [parts_operand_negation]
                  exact ⟨.operator .subtract :: used, congrArg (_ :: ·) hused, hargs,
                    fun h => .negation (hder h)⟩
              | add | multiply | divide =>
                  unfold operand
                  exact reads_missing _ _
          | opening =>
              rcases reads_sum_of ih rest hrest with ⟨used, hused, hargs, hder⟩
              by_cases hclosed : ∃ behind, (sum rest).parts.2 = .closing :: behind
              · rcases hclosed with ⟨behind, hbehind⟩
                rw [hbehind] at hused
                rw [parts_operand_group (Prod.ext rfl hbehind)]
                refine ⟨.opening :: (used ++ [.closing]), ?_, ?_, fun h => .group (hder h)⟩
                · rw [hused]
                  simp only [List.cons_append, List.append_assoc, List.nil_append]
                · rw [List.filterMap_cons_none rfl, List.filterMap_append, hargs]
                  exact List.append_nil _
              · rw [parts_operand_broken fun behind h => hclosed ⟨behind, h⟩]
                exact ⟨.opening :: used, congrArg (_ :: ·) hused, hargs, Bool.noConfusion⟩
          | closing =>
              unfold operand
              exact reads_missing _ _

/-- All tokens that are read as a sum without a gap are one. -/
theorem reads_sum (ts : List Token) : Reads .sum ts (sum ts).parts :=
  reads_sum_of (reads_operand ts.length) ts (Nat.le_refl _)

/-- A list of arguments is read up to its closing parenthesis. -/
theorem arguments_append (args : List Argument) (rest : List Token) :
    arguments (args.map Argument.token ++ .closing :: rest) = (args, .closing :: rest) := by
  induction args with
  | nil => rfl
  | cons arg more ih =>
      cases arg with
      | cell a => rw [List.map_cons, Argument.token, List.cons_append, arguments, ih]; rfl
      | range r => rw [List.map_cons, Argument.token, List.cons_append, arguments, ih]; rfl

/-- A call is read back from its tokens, whatever follows. -/
theorem parts_call (f : Aggregate) (args : List Argument) (rest : List Token) :
    (call f (.opening :: (args.map Argument.token ++ .closing :: rest))).parts =
      (.call f args, rest) := by
  unfold call
  simp only
  split
  · rename_i found behind hfound
    rw [arguments_append] at hfound
    cases hfound
    rfl
  · -- The arguments end in front of a closing parenthesis, so the call cannot be open.
    rename_i found behind hne hfound
    rw [arguments_append] at hfound
    cases hfound
    exact absurd rfl (hne rest)

/-- What it means that the tokens of a tree are read as that tree: an operand is read as it is, and
    at the binary levels reading goes on from it. -/
def ReadsAs (level : Level) (ts : List Token) (e : Expression) : Prop :=
  match level with
  | .operand => ∀ rest, (operand (ts ++ rest)).parts = (e, rest)
  | .product => ∀ rest, (product (ts ++ rest)).parts = (moreFactors e rest).parts
  | .sum => ∀ rest, ¬ GoesOn .product rest →
      (sum (ts ++ rest)).parts = (moreTerms e rest).parts

/-- An operator of another level ends a loop. -/
theorem not_goesOn_of_level {level other : Level} {op : Operator} {rest : List Token}
    (h : op.level = other) (hne : other ≠ level) : ¬ GoesOn level (.operator op :: rest) := by
  rintro ⟨op', rest', heq, hlevel⟩
  cases heq
  exact hne (h.symm.trans hlevel)

/-- So does a closing parenthesis. -/
theorem not_goesOn_closing (level : Level) (rest : List Token) :
    ¬ GoesOn level (.closing :: rest) := by
  rintro ⟨op, rest', heq, _⟩
  cases heq

-- What stands left of an operator is read first, so a derivation that groups from the left is read
-- in the order of its rules.
theorem readsAs_of_derives {level : Level} {ts : List Token} {e : Expression}
    (h : Derives level ts e) : ReadsAs level ts e := by
  induction h with
  | number x => exact fun rest => parts_operand_number x rest
  | cell a => exact fun rest => parts_operand_cell a rest
  | negation _ ih =>
      intro rest
      rw [List.cons_append, parts_operand_negation, ih rest]
  | @group ts e _ ih =>
      -- The sum inside ends at the closing parenthesis, whatever is behind that one.
      intro rest
      have hinside : (sum (ts ++ .closing :: rest)).parts = (e, .closing :: rest) := by
        rw [ih _ (not_goesOn_closing .product rest),
          parts_moreTerms_end (not_goesOn_closing .sum rest)]
      rw [List.cons_append, List.append_assoc, List.singleton_append]
      exact parts_operand_group hinside
  | call f args =>
      intro rest
      rw [List.cons_append, List.cons_append, List.append_assoc, List.singleton_append,
        parts_operand_call, parts_call]
  | ofOperand _ ih =>
      intro rest
      rw [parts_product, ih rest]
  | factor op hlevel _ _ ihl ihr =>
      intro rest
      rw [List.append_assoc, List.cons_append, ihl, parts_moreFactors hlevel, ihr rest]
  | ofProduct _ ih =>
      intro rest hrest
      rw [parts_sum, ih rest, parts_moreFactors_end hrest]
  | @term ts us _ _ op hlevel _ _ ihl ihr =>
      -- The left side stops at the operator, which is one of sums.
      intro rest hrest
      have hop : ¬ GoesOn .product (.operator op :: (us ++ rest)) :=
        not_goesOn_of_level hlevel (by decide)
      rw [List.append_assoc, List.cons_append, ihl _ hop, parts_moreTerms hlevel, ihr rest,
        parts_moreFactors_end hrest]

end Parse

namespace Expression

open Grammar Parse

/-- A derivation gives the tree that reading gives. -/
theorem ofTokens_of_derives {ts : List Token} {e : Expression} (h : Derives .sum ts e) :
    ofTokens ts = e := by
  have hread : (Parse.sum ts).parts = (e, []) := by
    have hall := readsAs_of_derives h [] (not_goesOn_nil .product)
    rw [List.append_nil, parts_moreTerms_end (not_goesOn_nil .sum)] at hall
    exact hall
  have he : (Parse.sum ts).expression = e := congrArg Prod.fst hread
  have hrest : (Parse.sum ts).rest = [] := congrArg Prod.snd hread
  simp only [ofTokens, hrest, List.isEmpty_nil, if_true, he]

/-- A tree without gaps has a derivation from all tokens. -/
theorem derives_ofTokens {ts : List Token} (h : (ofTokens ts).isComplete = true) :
    Derives .sum ts (ofTokens ts) := by
  rcases reads_sum ts with ⟨used, hts, _, hder⟩
  unfold ofTokens at h ⊢
  simp only [parts] at hts hder h ⊢
  by_cases hrest : (Parse.sum ts).rest.isEmpty = true
  · rw [if_pos hrest] at h ⊢
    rw [List.isEmpty_iff.1 hrest, List.append_nil] at hts
    rw [← hts] at hder
    exact hder h
  · -- Tokens are left over, so the tree has a gap at its root.
    rw [if_neg hrest] at h
    cases h

/-- Whatever an expression names was named by a token. -/
theorem token_mem_of_mem_arguments {ts : List Token} {arg : Argument}
    (h : arg ∈ (ofTokens ts).arguments) : arg.token ∈ ts := by
  rcases reads_sum ts with ⟨used, hts, hargs, _⟩
  have harg : arg ∈ used.filterMap Token.argument? := by
    rw [hargs]
    unfold ofTokens at h
    simp only at h
    split at h
    · exact h
    · exact h
  rcases List.mem_filterMap.1 harg with ⟨t, ht, htarg⟩
  have htoken : arg.token = t := by
    cases t <;> cases htarg <;> rfl
  rw [htoken, hts]
  exact List.mem_append_left _ ht

end Expression

end Worksheet
