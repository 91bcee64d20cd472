import Worksheet.Formula.Token

/-!
# Expressions

Tokens are read as sums of products of operands. Both levels group from the left, and a minus sign
in front of an operand binds tighter than any operator:

    sum     := product (('+' | '-') product)*
    product := operand (('*' | '/') operand)*
    operand := NUMBER | CELL | '-' operand | '(' sum ')' | FUNCTION '(' (RANGE | CELL)* ')'

Reading never fails. Where the tokens leave the grammar, the expression says at which point of the
evaluation this shows: a missing operand after what stands before it has been evaluated, a missing
parenthesis after everything inside it has been. So an earlier error of another kind comes first.

## Main definitions

* `Argument`: What a function is applied to.
* `Expression`: A tree of operations, possibly with gaps.
* `Expression.isComplete`: Whether the tree has no gaps.
* `Parse`: An expression and the tokens behind it.
* `Parse.sum`, `Parse.product`, `Parse.operand`: Reading the three levels of the grammar.
* `Expression.ofTokens`: The expression that all tokens together form.

## Theorems

* `Parse.arguments_length`: An argument list ends within the tokens it starts in.
-/

namespace Worksheet

/-- What a function is applied to: a cell, or all cells of a range. -/
inductive Argument where
  /-- A single cell. -/
  | cell (address : Address)
  /-- All cells of a range. -/
  | range (range : Range)
  deriving DecidableEq, Repr

/-- A tree of operations, with gaps where the tokens did not fit the grammar. -/
inductive Expression where
  /-- A number. -/
  | number (x : Float)
  /-- The value of a cell. -/
  | cell (address : Address)
  /-- The negation of an operand. -/
  | negation (operand : Expression)
  /-- An operator applied to two operands. -/
  | binary (op : Operator) (left right : Expression)
  /-- A function applied to its arguments. -/
  | call (f : Aggregate) (arguments : List Argument)
  /-- A gap where an operand should be. -/
  | missing
  /-- An expression that should have been followed by something else. -/
  | broken (e : Expression)
  /-- A function whose argument list does not end as it should. -/
  | brokenCall (arguments : List Argument)

namespace Expression

/-- Whether the tree has no gaps. -/
def isComplete : Expression → Bool
  | number _ | cell _ | call _ _ => true
  | negation operand => operand.isComplete
  | binary _ left right => left.isComplete && right.isComplete
  | missing | broken _ | brokenCall _ => false

end Expression

/-- An expression read from the start of a list of tokens, and the tokens behind it. -/
structure Parse (ts : List Token) where
  /-- What was read. -/
  expression : Expression
  /-- The tokens that were not read. -/
  rest : List Token
  /-- Reading only removes tokens from the front. -/
  length_le : rest.length ≤ ts.length

namespace Parse

/-- The arguments at the start of a list of tokens, and the tokens behind them. -/
def arguments : List Token → List Argument × List Token
  | .cell a :: ts => (arguments ts).map (.cell a :: ·) id
  | .range r :: ts => (arguments ts).map (.range r :: ·) id
  | ts => ([], ts)

theorem arguments_length (ts : List Token) : (arguments ts).2.length ≤ ts.length := by
  fun_induction arguments ts with
  | case1 a ts ih => exact Nat.le_succ_of_le ih
  | case2 r ts ih => exact Nat.le_succ_of_le ih
  | case3 ts => exact Nat.le_refl _

/-- The call of a function, read from the tokens behind its name. -/
def call (f : Aggregate) : (ts : List Token) → Parse ts
  | .opening :: ts =>
    match h : arguments ts with
    | (args, .closing :: rest) =>
      ⟨.call f args, rest, by
        have := arguments_length ts
        rw [h] at this
        simp only [List.length_cons] at this ⊢
        omega⟩
    | (args, rest) =>
      ⟨.brokenCall args, rest, by
        have := arguments_length ts
        rw [h] at this
        exact Nat.le_succ_of_le this⟩
  | ts => ⟨.missing, ts, Nat.le_refl _⟩

mutual

/-- An operand at the start of the tokens. -/
def operand (ts : List Token) : Parse ts :=
  match ts with
  | .number x :: rest => ⟨.number x, rest, Nat.le_succ _⟩
  | .cell a :: rest => ⟨.cell a, rest, Nat.le_succ _⟩
  | .operator .subtract :: rest =>
    let p := operand rest
    ⟨.negation p.expression, p.rest, Nat.le_succ_of_le p.length_le⟩
  | .opening :: rest =>
    let p := sum rest
    match h : p.rest with
    | .closing :: behind =>
      ⟨p.expression, behind, by
        have := p.length_le
        rw [h, List.length_cons] at this
        rw [List.length_cons]
        omega⟩
    | behind =>
      ⟨.broken p.expression, behind, by
        have := p.length_le
        rw [h] at this
        exact Nat.le_succ_of_le this⟩
  | .function f :: rest =>
    let p := call f rest
    ⟨p.expression, p.rest, Nat.le_succ_of_le p.length_le⟩
  | ts => ⟨.missing, ts, Nat.le_refl _⟩
termination_by 5 * ts.length
decreasing_by
  all_goals
    simp only [List.length_cons]
    omega

/-- The factors behind those already read as `left`. -/
def moreFactors (left : Expression) (ts : List Token) : Parse ts :=
  match ts with
  | .operator .multiply :: rest =>
    let p := operand rest
    let q := moreFactors (.binary .multiply left p.expression) p.rest
    ⟨q.expression, q.rest, Nat.le_succ_of_le (Nat.le_trans q.length_le p.length_le)⟩
  | .operator .divide :: rest =>
    let p := operand rest
    let q := moreFactors (.binary .divide left p.expression) p.rest
    ⟨q.expression, q.rest, Nat.le_succ_of_le (Nat.le_trans q.length_le p.length_le)⟩
  | ts => ⟨left, ts, Nat.le_refl _⟩
termination_by 5 * ts.length + 1
decreasing_by
  · simp only [List.length_cons]
    omega
  · have hp : p.rest.length ≤ rest.length := p.length_le
    show 5 * p.rest.length + 1 < 5 * (rest.length + 1) + 1
    omega
  · simp only [List.length_cons]
    omega
  · have hp : p.rest.length ≤ rest.length := p.length_le
    show 5 * p.rest.length + 1 < 5 * (rest.length + 1) + 1
    omega

/-- A product at the start of the tokens. -/
def product (ts : List Token) : Parse ts :=
  let p := operand ts
  let q := moreFactors p.expression p.rest
  ⟨q.expression, q.rest, Nat.le_trans q.length_le p.length_le⟩
termination_by 5 * ts.length + 2
decreasing_by
  · omega
  · have hp : p.rest.length ≤ ts.length := p.length_le
    show 5 * p.rest.length + 1 < 5 * ts.length + 2
    omega

/-- The terms behind those already read as `left`. -/
def moreTerms (left : Expression) (ts : List Token) : Parse ts :=
  match ts with
  | .operator .add :: rest =>
    let p := product rest
    let q := moreTerms (.binary .add left p.expression) p.rest
    ⟨q.expression, q.rest, Nat.le_succ_of_le (Nat.le_trans q.length_le p.length_le)⟩
  | .operator .subtract :: rest =>
    let p := product rest
    let q := moreTerms (.binary .subtract left p.expression) p.rest
    ⟨q.expression, q.rest, Nat.le_succ_of_le (Nat.le_trans q.length_le p.length_le)⟩
  | ts => ⟨left, ts, Nat.le_refl _⟩
termination_by 5 * ts.length + 3
decreasing_by
  · simp only [List.length_cons]
    omega
  · have hp : p.rest.length ≤ rest.length := p.length_le
    show 5 * p.rest.length + 3 < 5 * (rest.length + 1) + 3
    omega
  · simp only [List.length_cons]
    omega
  · have hp : p.rest.length ≤ rest.length := p.length_le
    show 5 * p.rest.length + 3 < 5 * (rest.length + 1) + 3
    omega

/-- A sum at the start of the tokens. -/
def sum (ts : List Token) : Parse ts :=
  let p := product ts
  let q := moreTerms p.expression p.rest
  ⟨q.expression, q.rest, Nat.le_trans q.length_le p.length_le⟩
termination_by 5 * ts.length + 4
decreasing_by
  · omega
  · have hp : p.rest.length ≤ ts.length := p.length_le
    show 5 * p.rest.length + 3 < 5 * ts.length + 4
    omega

end

end Parse

/-- The expression that all tokens together form; tokens left over make it a broken one. -/
def Expression.ofTokens (ts : List Token) : Expression :=
  let p := Parse.sum ts
  if p.rest.isEmpty then p.expression else .broken p.expression

end Worksheet
