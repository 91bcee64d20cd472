import Worksheet.Proofs.Formula.Reading

/-!
# Syntax trees

The grammar of formulas as a type: a tree records which rule was used where, so two trees for the
same tokens would be two derivations. There are none. The repeated parts of the two binary levels
are phrases of their own, as in

    sum     := product (('+' | '-') product)*
    product := operand (('*' | '/') operand)*

which makes a tree grow to the right, in the order of its tokens. From left to right each token says
which rule comes next, and a repetition ends where no operator of its level follows. So two trees
that start the same list of tokens agree, provided that neither could have gone on.

A repeated part makes an expression out of the one in front of it, grouping from the left.

## Main definitions

* `Grammar.Phrase`: The kinds of phrases.
* `Grammar.Tree`: Syntax trees.
* `Grammar.Tree.tokens`: The tokens of a tree, from left to right.
* `Grammar.Tree.expression`: The expression of a tree, without its parentheses.

## Theorems

* `Grammar.derives_iff_tree`: The rules derive what has a tree.
* `Grammar.Tree.eq_of_tokens_append`: Two trees at the start of the same tokens are the same.
* `Grammar.Tree.eq_of_tokens`: Tokens have one tree at most.
-/

namespace Worksheet

namespace Grammar

/-- The kinds of phrases. -/
inductive Phrase where
  /-- What no operator can take apart. -/
  | operand
  /-- Any number of operands behind another one, with operators of products in between. -/
  | factors
  /-- Operands that are multiplied and divided. -/
  | product
  /-- Any number of products behind another one, with operators of sums in between. -/
  | terms
  /-- Products that are added and subtracted. -/
  | sum

/-- How a phrase is derived, rule by rule. -/
inductive Tree : Phrase → Type where
  | number (x : Float) : Tree .operand
  | cell (a : Address) : Tree .operand
  | negation (operand : Tree .operand) : Tree .operand
  | group (inside : Tree .sum) : Tree .operand
  | call (f : Aggregate) (args : List Argument) : Tree .operand
  | noFactors : Tree .factors
  | factors (op : Operator) (hlevel : op.level = .product) (next : Tree .operand)
      (more : Tree .factors) : Tree .factors
  | product (first : Tree .operand) (more : Tree .factors) : Tree .product
  | noTerms : Tree .terms
  | terms (op : Operator) (hlevel : op.level = .sum) (next : Tree .product)
      (more : Tree .terms) : Tree .terms
  | sum (first : Tree .product) (more : Tree .terms) : Tree .sum

/-- What a phrase stands for: an expression, or what a repeated part makes of the expression in
    front of it. -/
abbrev Phrase.Sense : Phrase → Type
  | operand | product | sum => Expression
  | factors | terms => Expression → Expression

namespace Tree

variable {p : Phrase}

/-- The tokens of a tree. -/
def tokens {p : Phrase} : Tree p → List Token
  | number x => [.number x]
  | cell a => [.cell a]
  | negation operand => .operator .subtract :: operand.tokens
  | group inside => .opening :: (inside.tokens ++ [.closing])
  | call f args => .function f :: .opening :: (args.map Argument.token ++ [.closing])
  | noFactors | noTerms => []
  | factors op _ next more => .operator op :: (next.tokens ++ more.tokens)
  | terms op _ next more => .operator op :: (next.tokens ++ more.tokens)
  | product first more => first.tokens ++ more.tokens
  | sum first more => first.tokens ++ more.tokens

/-- The expression of a tree; operators of one level group from the left. -/
def expression {p : Phrase} : Tree p → p.Sense
  | number x => Expression.number x
  | cell a => Expression.cell a
  | negation operand => Expression.negation operand.expression
  | group inside => inside.expression
  | call f args => Expression.call f args
  | noFactors | noTerms => fun left => left
  | factors op _ next more => fun left => more.expression (.binary op left next.expression)
  | terms op _ next more => fun left => more.expression (.binary op left next.expression)
  | product first more => more.expression first.expression
  | sum first more => more.expression first.expression

end Tree

/-- What the rules say of a tree for a phrase. A repeated part may stand behind anything of its
    level. -/
def Phrase.Derives : (p : Phrase) → List Token → p.Sense → Prop
  | operand, ts, e => Grammar.Derives .operand ts e
  | product, ts, e => Grammar.Derives .product ts e
  | sum, ts, e => Grammar.Derives .sum ts e
  | factors, ts, extend => ∀ before left, Grammar.Derives .product before left →
      Grammar.Derives .product (before ++ ts) (extend left)
  | terms, ts, extend => ∀ before left, Grammar.Derives .sum before left →
      Grammar.Derives .sum (before ++ ts) (extend left)

/-- A tree is a derivation of its expression from its tokens. -/
theorem Tree.derives {p : Phrase} (t : Tree p) : p.Derives t.tokens t.expression := by
  induction t with
  | number x => exact .number x
  | cell a => exact .cell a
  | negation _ ih => exact .negation ih
  | group _ ih => exact .group ih
  | call f args => exact .call f args
  | noFactors | noTerms =>
      intro before left h
      rw [tokens, List.append_nil]
      exact h
  | factors op hlevel next more ihNext ihMore =>
      -- The operands so far are the left side of the operation with the next one.
      intro before left h
      have hmore := ihMore _ _ (.factor op hlevel h ihNext)
      rw [List.append_assoc] at hmore
      exact hmore
  | terms op hlevel next more ihNext ihMore =>
      intro before left h
      have hmore := ihMore _ _ (.term op hlevel h ihNext)
      rw [List.append_assoc] at hmore
      exact hmore
  | product first more ihFirst ihMore => exact ihMore _ _ (.ofOperand ihFirst)
  | sum first more ihFirst ihMore => exact ihMore _ _ (.ofProduct ihFirst)

/-- A tree for tokens and an expression of a level. At the two binary levels it may go on with any
    repeated part. -/
def HasTree : Level → List Token → Expression → Prop
  | .operand, ts, e => ∃ t : Tree .operand, t.tokens = ts ∧ t.expression = e
  | .product, ts, e => ∀ more : Tree .factors, ∃ t : Tree .product,
      t.tokens = ts ++ more.tokens ∧ t.expression = more.expression e
  | .sum, ts, e => ∀ more : Tree .terms, ∃ t : Tree .sum,
      t.tokens = ts ++ more.tokens ∧ t.expression = more.expression e

theorem hasTree_of_derives {level : Level} {ts : List Token} {e : Expression}
    (h : Derives level ts e) : HasTree level ts e := by
  -- The rules split off the last operator, and a tree the first one. So what has been split off
  -- goes in front of the part that follows.
  induction h with
  | number x => exact ⟨.number x, rfl, rfl⟩
  | cell a => exact ⟨.cell a, rfl, rfl⟩
  | negation _ ih =>
      rcases ih with ⟨t, rfl, rfl⟩
      exact ⟨.negation t, rfl, rfl⟩
  | group _ ih =>
      rcases ih .noTerms with ⟨t, htokens, rfl⟩
      rw [Tree.tokens, List.append_nil] at htokens
      exact ⟨.group t, by rw [Tree.tokens, htokens], rfl⟩
  | call f args => exact ⟨.call f args, rfl, rfl⟩
  | ofOperand _ ih =>
      rcases ih with ⟨t, rfl, rfl⟩
      exact fun more => ⟨.product t more, rfl, rfl⟩
  | factor op hlevel _ _ ihl ihr =>
      rcases ihr with ⟨t, rfl, rfl⟩
      intro more
      rcases ihl (.factors op hlevel t more) with ⟨whole, htokens, hexpression⟩
      refine ⟨whole, ?_, hexpression⟩
      rw [htokens, Tree.tokens, List.append_assoc, List.cons_append]
  | ofProduct _ ih =>
      rcases ih .noFactors with ⟨t, htokens, hexpression⟩
      rw [Tree.tokens, List.append_nil] at htokens
      refine fun more => ⟨.sum t more, by rw [Tree.tokens, htokens], ?_⟩
      exact congrArg more.expression hexpression
  | term op hlevel _ _ ihl ihr =>
      rcases ihr .noFactors with ⟨t, htokens, hright⟩
      rw [Tree.tokens, List.append_nil] at htokens
      intro more
      rcases ihl (.terms op hlevel t more) with ⟨whole, hwhole, hexpression⟩
      refine ⟨whole, ?_, ?_⟩
      · rw [hwhole, Tree.tokens, htokens, List.append_assoc, List.cons_append]
      · rw [hexpression, Tree.expression, hright]
        rfl

/-- The rules derive exactly what has a tree. -/
theorem derives_iff_tree {ts : List Token} {e : Expression} :
    Derives .sum ts e ↔ ∃ t : Tree .sum, t.tokens = ts ∧ t.expression = e := by
  constructor
  · intro h
    rcases hasTree_of_derives h .noTerms with ⟨t, htokens, hexpression⟩
    rw [Tree.tokens, List.append_nil] at htokens
    exact ⟨t, htokens, hexpression⟩
  · rintro ⟨t, rfl, rfl⟩
    exact t.derives

/-! ## Uniqueness -/

/-- A phrase does not go on with the tokens behind it. Operands end by themselves. -/
def Phrase.Stops : Phrase → List Token → Prop
  | operand, _ => True
  | factors, rest | product, rest => ¬ Parse.GoesOn .product rest
  | terms, rest | sum, rest => ¬ Parse.GoesOn .product rest ∧ ¬ Parse.GoesOn .sum rest

namespace Tree

variable {rest rest' : List Token}

-- What follows a product in a sum is an operator of the sum or what follows the sum.
theorem not_goesOn_terms (more : Tree .terms) (h : ¬ Parse.GoesOn .product rest) :
    ¬ Parse.GoesOn .product (more.tokens ++ rest) := by
  cases more with
  | noTerms => exact h
  | terms op hlevel next more => exact Parse.not_goesOn_of_level hlevel (by decide)

theorem arguments_inj {args args' : List Argument}
    (h : args.map Argument.token ++ .closing :: rest =
      args'.map Argument.token ++ .closing :: rest') : args = args' ∧ rest = rest' := by
  have hread := congrArg Parse.arguments h
  rw [Parse.arguments_append, Parse.arguments_append] at hread
  simp only [Prod.mk.injEq, List.cons.injEq, true_and] at hread
  exact hread

/-- Two trees that stand at the start of the same tokens and do not go on there are the same. -/
theorem eq_of_tokens_append {p : Phrase} (t t' : Tree p) (hstops : p.Stops rest)
    (hstops' : p.Stops rest') (h : t.tokens ++ rest = t'.tokens ++ rest') :
    t = t' ∧ rest = rest' := by
  induction t generalizing rest rest' with
  | number x =>
      cases t' with
      | number y => simp_all [tokens]
      | cell a | negation u | group u | call f args => simp [tokens] at h
  | cell a =>
      cases t' with
      | cell b => simp_all [tokens]
      | number x | negation u | group u | call f args => simp [tokens] at h
  | negation u ih =>
      cases t' with
      | negation u' =>
          simp only [tokens, List.cons_append, List.cons.injEq, true_and] at h
          rcases ih u' trivial trivial h with ⟨rfl, hrest⟩
          exact ⟨rfl, hrest⟩
      | number x | cell a | group u' | call f args => simp [tokens] at h
  | group u ih =>
      -- What is inside the parentheses stops at the one that closes, on both sides.
      cases t' with
      | group u' =>
          simp only [tokens, List.cons_append, List.append_assoc, List.cons.injEq, true_and,
            List.nil_append] at h
          have hclosing : ∀ more, Phrase.sum.Stops (.closing :: more) := fun more =>
            ⟨Parse.not_goesOn_closing .product more, Parse.not_goesOn_closing .sum more⟩
          rcases ih u' (hclosing rest) (hclosing rest') h with ⟨rfl, hrest⟩
          exact ⟨rfl, (List.cons.inj hrest).2⟩
      | number x | cell a | negation u' | call f args => simp [tokens] at h
  | call f args =>
      cases t' with
      | call f' args' =>
          simp only [tokens, List.cons_append, List.append_assoc, List.cons.injEq, true_and,
            List.nil_append, Token.function.injEq] at h
          rcases h with ⟨rfl, h⟩
          rcases arguments_inj h with ⟨rfl, hrest⟩
          exact ⟨rfl, hrest⟩
      | number x | cell a | negation u | group u => simp [tokens] at h
  | noFactors =>
      -- A sequence that ends here while the other goes on is ruled out by what it stops at.
      cases t' with
      | noFactors => exact ⟨rfl, h⟩
      | factors op hlevel next more => exact absurd ⟨op, _, h, hlevel⟩ hstops
  | factors op hlevel next more ihNext ihMore =>
      cases t' with
      | noFactors => exact absurd ⟨op, _, h.symm, hlevel⟩ hstops'
      | factors op' hlevel' next' more' =>
          simp only [tokens, List.cons_append, List.append_assoc, List.cons.injEq,
            Token.operator.injEq] at h
          rcases h with ⟨rfl, h⟩
          rcases ihNext next' trivial trivial h with ⟨rfl, hmore⟩
          rcases ihMore more' hstops hstops' hmore with ⟨rfl, hrest⟩
          exact ⟨rfl, hrest⟩
  | product first more ihFirst ihMore =>
      cases t' with
      | product first' more' =>
          simp only [tokens, List.append_assoc] at h
          rcases ihFirst first' trivial trivial h with ⟨rfl, hmore⟩
          rcases ihMore more' hstops hstops' hmore with ⟨rfl, hrest⟩
          exact ⟨rfl, hrest⟩
  | noTerms =>
      cases t' with
      | noTerms => exact ⟨rfl, h⟩
      | terms op hlevel next more => exact absurd ⟨op, _, h, hlevel⟩ hstops.2
  | terms op hlevel next more ihNext ihMore =>
      cases t' with
      | noTerms => exact absurd ⟨op, _, h.symm, hlevel⟩ hstops'.2
      | terms op' hlevel' next' more' =>
          -- A term in the middle stops at a sign that is no factor, which is where the next term
          -- begins.
          simp only [tokens, List.cons_append, List.append_assoc, List.cons.injEq,
            Token.operator.injEq] at h
          rcases h with ⟨rfl, h⟩
          rcases ihNext next' (not_goesOn_terms more hstops.1) (not_goesOn_terms more' hstops'.1) h
            with ⟨rfl, hmore⟩
          rcases ihMore more' hstops hstops' hmore with ⟨rfl, hrest⟩
          exact ⟨rfl, hrest⟩
  | sum first more ihFirst ihMore =>
      cases t' with
      | sum first' more' =>
          simp only [tokens, List.append_assoc] at h
          rcases ihFirst first' (not_goesOn_terms more hstops.1)
            (not_goesOn_terms more' hstops'.1) h with ⟨rfl, hmore⟩
          rcases ihMore more' hstops hstops' hmore with ⟨rfl, hrest⟩
          exact ⟨rfl, hrest⟩

/-- Tokens have one tree at most. -/
theorem eq_of_tokens {t t' : Tree .sum} (h : t.tokens = t'.tokens) : t = t' := by
  have hend : Phrase.sum.Stops [] := ⟨Parse.not_goesOn_nil .product, Parse.not_goesOn_nil .sum⟩
  refine (eq_of_tokens_append t t' hend hend ?_).1
  rw [h]

end Tree

end Grammar

end Worksheet
