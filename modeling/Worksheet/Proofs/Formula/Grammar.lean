import Worksheet.Formula.Expression

/-!
# The grammar of formulas

The grammar in the form of rules, apart from any way to read it. A rule says which tokens form which
tree; both binary levels group from the left, because what stands left of an operator may be of the
same level again and what stands right of it may not.

A tree names the cells and ranges of the tokens that form it, in the same order.

## Main definitions

* `Grammar.Level`: The three levels of the grammar.
* `Grammar.Derives`: The rules: which tokens form which tree at a level.
* `Token.argument?`, `Expression.arguments`: The cells and ranges named, from left to right.

## Theorems

* `Grammar.arguments_of_derives`: A derivation uses every cell and range.
* `Grammar.isComplete_of_derives`: A derived tree has no gaps.
-/

namespace Worksheet

namespace Grammar

/-- The levels of the grammar, from the outermost. -/
inductive Level where
  /-- Products that are added and subtracted. -/
  | sum
  /-- Operands that are multiplied and divided. -/
  | product
  /-- What no operator can take apart. -/
  | operand
  deriving DecidableEq, Repr

end Grammar

namespace Operator

/-- The level whose operands the operator joins. -/
def level : Operator → Grammar.Level
  | add | subtract => .sum
  | multiply | divide => .product

end Operator

/-- The token of an argument. -/
def Argument.token : Argument → Token
  | cell a => .cell a
  | range r => .range r

/-- The cell or range that a token names. -/
def Token.argument? : Token → Option Argument
  | cell a => some (.cell a)
  | range r => some (.range r)
  | _ => none

/-- The cells and ranges that an expression names, from left to right. -/
def Expression.arguments : Expression → List Argument
  | number _ | missing => []
  | cell a => [.cell a]
  | negation e | broken e => e.arguments
  | binary _ left right => left.arguments ++ right.arguments
  | call _ args | brokenCall args => args

namespace Grammar

/-- The rules of the grammar: the tokens that form a tree at a level. -/
inductive Derives : Level → List Token → Expression → Prop where
  | number (x : Float) : Derives .operand [.number x] (.number x)
  | cell (a : Address) : Derives .operand [.cell a] (.cell a)
  | negation {ts : List Token} {e : Expression} (operand : Derives .operand ts e) :
      Derives .operand (.operator .subtract :: ts) (.negation e)
  | group {ts : List Token} {e : Expression} (inside : Derives .sum ts e) :
      Derives .operand (.opening :: (ts ++ [.closing])) e
  | call (f : Aggregate) (args : List Argument) :
      Derives .operand (.function f :: .opening :: (args.map Argument.token ++ [.closing]))
        (.call f args)
  | ofOperand {ts : List Token} {e : Expression} (operand : Derives .operand ts e) :
      Derives .product ts e
  | factor {ts us : List Token} {left right : Expression} (op : Operator)
      (hlevel : op.level = .product) (before : Derives .product ts left)
      (behind : Derives .operand us right) :
      Derives .product (ts ++ .operator op :: us) (.binary op left right)
  | ofProduct {ts : List Token} {e : Expression} (product : Derives .product ts e) :
      Derives .sum ts e
  | term {ts us : List Token} {left right : Expression} (op : Operator)
      (hlevel : op.level = .sum) (before : Derives .sum ts left)
      (behind : Derives .product us right) :
      Derives .sum (ts ++ .operator op :: us) (.binary op left right)

theorem argument?_token (arg : Argument) : arg.token.argument? = some arg := by
  cases arg <;> rfl

theorem filterMap_argument?_map_token (args : List Argument) :
    (args.map Argument.token).filterMap Token.argument? = args := by
  induction args with
  | nil => rfl
  | cons arg rest ih =>
      rw [List.map_cons, List.filterMap_cons_some (argument?_token arg), ih]

-- A rule puts tokens around those of its parts, and none of these names anything.
theorem arguments_of_derives {level : Level} {ts : List Token} {e : Expression}
    (h : Derives level ts e) : ts.filterMap Token.argument? = e.arguments := by
  induction h with
  | number x => rfl
  | cell a => rfl
  | negation _ ih => exact ih
  | group _ ih =>
      -- Parentheses, operators and function names are no arguments.
      rw [List.filterMap_cons_none rfl, List.filterMap_append, ih]
      exact List.append_nil _
  | call f args =>
      rw [List.filterMap_cons_none rfl, List.filterMap_cons_none rfl, List.filterMap_append,
        filterMap_argument?_map_token]
      exact List.append_nil _
  | ofOperand _ ih => exact ih
  | factor op _ _ _ ihl ihr =>
      rw [List.filterMap_append, List.filterMap_cons_none rfl, ihl, ihr]
      rfl
  | ofProduct _ ih => exact ih
  | term op _ _ _ ihl ihr =>
      rw [List.filterMap_append, List.filterMap_cons_none rfl, ihl, ihr]
      rfl

theorem isComplete_of_derives {level : Level} {ts : List Token} {e : Expression}
    (h : Derives level ts e) : e.isComplete = true := by
  induction h with
  | number x => rfl
  | cell a => rfl
  | negation _ ih => exact ih
  | group _ ih => exact ih
  | call f args => rfl
  | ofOperand _ ih => exact ih
  | factor op _ _ _ ihl ihr => rw [Expression.isComplete, ihl, ihr, Bool.true_and]
  | ofProduct _ ih => exact ih
  | term op _ _ _ ihl ihr => rw [Expression.isComplete, ihl, ihr, Bool.true_and]

end Grammar

end Worksheet
