import Mathlib.Data.List.Forall2
import Worksheet.Proofs.Formula.Grammar

/-!
# Formulas alike but for their references

Two lists of tokens that differ only in the cells and ranges they name, where those correspond, form
the same tree but for these cells and ranges. Which cells and which ranges correspond is left open.

## Main definitions

* `Argument.Related`, `Token.Related`, `Expression.Related`: Correspondence of cells and ranges
  carried over to tokens and trees.

## Theorems

* `Grammar.exists_derives_of_related`: Corresponding tokens form corresponding trees.
-/

namespace Worksheet

section Relations

variable (C : Address → Address → Prop) (R : Range → Range → Prop)

/-- Two cells or two ranges that correspond. -/
inductive Argument.Related : Argument → Argument → Prop where
  | cell {a b : Address} (h : C a b) : Related (.cell a) (.cell b)
  | range {r t : Range} (h : R r t) : Related (.range r) (.range t)

/-- Two references that correspond, or a token that is no reference and itself. -/
inductive Token.Related : Token → Token → Prop where
  | argument {x y : Argument} (h : Argument.Related C R x y) : Related x.token y.token
  | same {t : Token} (h : t.argument? = none) : Related t t

/-- Two trees of one shape whose references correspond. -/
inductive Expression.Related : Expression → Expression → Prop where
  | number (x : Float) : Related (.number x) (.number x)
  | cell {a b : Address} (h : C a b) : Related (.cell a) (.cell b)
  | negation {e e' : Expression} (h : Related e e') : Related (.negation e) (.negation e')
  | binary (op : Operator) {left right left' right' : Expression} (hleft : Related left left')
      (hright : Related right right') : Related (.binary op left right) (.binary op left' right')
  | call (f : Aggregate) {args args' : List Argument}
      (h : List.Forall₂ (Argument.Related C R) args args') : Related (.call f args) (.call f args')

end Relations

variable {C : Address → Address → Prop} {R : Range → Range → Prop}

theorem Argument.Related.flip {x y : Argument} (h : Argument.Related C R x y) :
    Argument.Related (flip C) (flip R) y x := by
  cases h with
  | cell h => exact .cell h
  | range h => exact .range h

theorem Token.Related.flip {t u : Token} (h : Token.Related C R t u) :
    Token.Related (flip C) (flip R) u t := by
  cases h with
  | argument h => exact .argument h.flip
  | same h => exact .same h

namespace Grammar

/-- A token that is no argument is related to itself alone. -/
theorem eq_of_related {t u : Token} (h : Token.Related C R t u) (ht : t.argument? = none) :
    u = t := by
  cases h with
  | @argument x _ _ =>
      rw [argument?_token] at ht
      cases ht
  | same _ => rfl

/-- The token of an argument is related to tokens of arguments alone. -/
theorem exists_argument_of_related {x : Argument} {u : Token}
    (h : Token.Related C R x.token u) : ∃ y, u = y.token ∧ Argument.Related C R x y := by
  -- Cells and ranges are told from other tokens by `argument?`, which also gives them back.
  generalize hx : x.token = t at h
  cases h with
  | @argument x' y h =>
      have hsame := argument?_token x
      rw [hx, argument?_token, Option.some.injEq] at hsame
      exact ⟨y, rfl, hsame ▸ h⟩
  | same hnone =>
      rw [← hx, argument?_token] at hnone
      cases hnone

-- A list related to one with a token in it that is no reference has this token there too.
theorem forall₂_append_cons {t : Token} (ht : t.argument? = none) {before behind us : List Token}
    (h : List.Forall₂ (Token.Related C R) (before ++ t :: behind) us) :
    ∃ before' behind', us = before' ++ t :: behind' ∧
      List.Forall₂ (Token.Related C R) before before' ∧
      List.Forall₂ (Token.Related C R) behind behind' := by
  induction before generalizing us with
  | nil =>
      rcases List.forall₂_cons_left_iff.1 h with ⟨u, behind', hu, hbehind, rfl⟩
      -- The token in the middle is no argument, so it stands in the middle again.
      rw [eq_of_related hu ht]
      exact ⟨[], behind', rfl, .nil, hbehind⟩
  | cons t' before ih =>
      rcases List.forall₂_cons_left_iff.1 h with ⟨u, us', hu, hrest, rfl⟩
      rcases ih hrest with ⟨before', behind', rfl, hbefore, hbehind⟩
      exact ⟨u :: before', behind', rfl, .cons hu hbefore, hbehind⟩

/-- Tokens that are related to those of a list of arguments are those of a list of arguments, too.
    -/
theorem exists_arguments_of_related {args : List Argument} {us : List Token}
    (h : List.Forall₂ (Token.Related C R) (args.map Argument.token) us) :
    ∃ args', us = args'.map Argument.token ∧ List.Forall₂ (Argument.Related C R) args args' := by
  induction args generalizing us with
  | nil =>
      rw [List.forall₂_nil_left_iff.1 h]
      exact ⟨[], rfl, .nil⟩
  | cons arg rest ih =>
      rcases List.forall₂_cons_left_iff.1 h with ⟨u, us', hu, hrest, rfl⟩
      rcases exists_argument_of_related hu with ⟨y, rfl, hy⟩
      rcases ih hrest with ⟨args', rfl, hargs⟩
      exact ⟨y :: args', rfl, .cons hy hargs⟩

/-- Corresponding tokens form corresponding trees. -/
theorem exists_derives_of_related {level : Level} {ts us : List Token} {e : Expression}
    (h : Derives level ts e) (hrelated : List.Forall₂ (Token.Related C R) ts us) :
    ∃ e', Derives level us e' ∧ Expression.Related C R e e' := by
  -- By induction on the derivation, as each rule splits its tokens at signs that are no references;
  -- the related list has the same signs and so splits in the same places.
  induction h generalizing us with
  | number x =>
      rcases List.forall₂_cons_left_iff.1 hrelated with ⟨u, us', hu, hrest, rfl⟩
      rw [eq_of_related hu rfl, List.forall₂_nil_left_iff.1 hrest]
      exact ⟨.number x, .number x, .number x⟩
  | cell a =>
      rcases List.forall₂_cons_left_iff.1 hrelated with ⟨u, us', hu, hrest, rfl⟩
      rcases exists_argument_of_related (x := .cell a) hu with ⟨y, rfl, hy⟩
      rw [List.forall₂_nil_left_iff.1 hrest]
      cases hy with
      | @cell _ b hab => exact ⟨.cell b, .cell b, .cell hab⟩
  | negation _ ih =>
      rcases List.forall₂_cons_left_iff.1 hrelated with ⟨u, us', hu, hrest, rfl⟩
      rw [eq_of_related hu rfl]
      rcases ih hrest with ⟨e', he', hee'⟩
      exact ⟨.negation e', .negation he', .negation hee'⟩
  | group _ ih =>
      rcases List.forall₂_cons_left_iff.1 hrelated with ⟨u, us', hu, hrest, rfl⟩
      rcases forall₂_append_cons rfl hrest with ⟨inside, behind, rfl, hinside, hbehind⟩
      rw [eq_of_related hu rfl, List.forall₂_nil_left_iff.1 hbehind]
      rcases ih hinside with ⟨e', he', hee'⟩
      exact ⟨e', .group he', hee'⟩
  | call f args =>
      rcases List.forall₂_cons_left_iff.1 hrelated with ⟨u, us', hu, hrest, rfl⟩
      rcases List.forall₂_cons_left_iff.1 hrest with ⟨u', us'', hu', hrest', rfl⟩
      rcases forall₂_append_cons rfl hrest' with ⟨inside, behind, rfl, hinside, hbehind⟩
      rcases exists_arguments_of_related hinside with ⟨args', rfl, hargs⟩
      rw [eq_of_related hu rfl, eq_of_related hu' rfl, List.forall₂_nil_left_iff.1 hbehind]
      exact ⟨.call f args', .call f args', .call f hargs⟩
  | ofOperand _ ih =>
      rcases ih hrelated with ⟨e', he', hee'⟩
      exact ⟨e', .ofOperand he', hee'⟩
  | factor op hlevel _ _ ihl ihr =>
      rcases forall₂_append_cons rfl hrelated with ⟨before, behind, rfl, hbefore, hbehind⟩
      rcases ihl hbefore with ⟨left', hleft', hleft⟩
      rcases ihr hbehind with ⟨right', hright', hright⟩
      exact ⟨.binary op left' right', .factor op hlevel hleft' hright', .binary op hleft hright⟩
  | ofProduct _ ih =>
      rcases ih hrelated with ⟨e', he', hee'⟩
      exact ⟨e', .ofProduct he', hee'⟩
  | term op hlevel _ _ ihl ihr =>
      rcases forall₂_append_cons rfl hrelated with ⟨before, behind, rfl, hbefore, hbehind⟩
      rcases ihl hbefore with ⟨left', hleft', hleft⟩
      rcases ihr hbehind with ⟨right', hright', hright⟩
      exact ⟨.binary op left' right', .term op hlevel hleft' hright', .binary op hleft hright⟩

end Grammar

end Worksheet
