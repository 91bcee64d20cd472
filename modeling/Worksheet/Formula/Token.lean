import Worksheet.Range.Basic
import Worksheet.Formula.Aggregate

/-!
# Tokens

The parts of a formula that have a meaning of their own. Blanks and commas have none and leave no
token behind.

## Main definitions

* `Operator`: The four arithmetic operators.
* `Operator.ofChar?`, `Operator.char`: The operator for a character, and back.
* `Token`: A part of a formula.

## Theorems

* `Operator.ofChar?_eq_some_iff`: Each operator has exactly one character.
-/

namespace Worksheet

/-- The arithmetic operators. -/
inductive Operator where
  /-- Addition. -/
  | add
  /-- Subtraction, and in front of an operand its negation. -/
  | subtract
  /-- Multiplication. -/
  | multiply
  /-- Division. -/
  | divide
  deriving DecidableEq, Repr

namespace Operator

/-- The character of an operator. -/
def char : Operator → Char
  | add => '+'
  | subtract => '-'
  | multiply => '*'
  | divide => '/'

/-- The operator for a character. -/
def ofChar? : Char → Option Operator
  | '+' => some add
  | '-' => some subtract
  | '*' => some multiply
  | '/' => some divide
  | _ => none

theorem ofChar?_char (op : Operator) : ofChar? op.char = some op := by
  cases op <;> rfl

theorem char_of_ofChar? {c : Char} {op : Operator} (h : ofChar? c = some op) : op.char = c := by
  rw [ofChar?.eq_def] at h
  split at h <;> cases h <;> rfl

theorem ofChar?_eq_some_iff {c : Char} {op : Operator} : ofChar? c = some op ↔ op.char = c :=
  ⟨char_of_ofChar?, fun h => h ▸ ofChar?_char op⟩

end Operator

/-- A part of a formula that has a meaning of its own. -/
inductive Token where
  /-- A single cell. -/
  | cell (address : Address)
  /-- A range of cells. -/
  | range (range : Range)
  /-- The name of a function; the parenthesis behind it is a token of its own. -/
  | function (f : Aggregate)
  /-- An arithmetic operator. -/
  | operator (op : Operator)
  /-- A number, already divided by 100 if it was written as a percentage. -/
  | number (x : Float)
  /-- An opening parenthesis. -/
  | opening
  /-- A closing parenthesis. -/
  | closing

end Worksheet
