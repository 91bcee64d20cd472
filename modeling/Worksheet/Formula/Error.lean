import Worksheet.Range.Basic
import Worksheet.Formula.Aggregate

/-!
# Formula errors

Why a formula has no value. A formula can be malformed, which shows before any cell is looked at, or
its evaluation can fail.

## Main definitions

* `SyntaxError`: What is wrong with the text of a formula.
* `FormulaError`: Why a formula has no value.
* `SyntaxError.message`, `FormulaError.message`: The text shown for an error.
* `FormulaError.isCircular`: Whether the cause is a cell that depends on itself.
-/

namespace Worksheet

/-- What is wrong with the text of a formula. Positions count the bytes after the equals sign. -/
inductive SyntaxError where
  /-- There is nothing but blanks. -/
  | empty
  /-- The text does not start with the equals sign. -/
  | noEquals
  /-- More parentheses close than open; the position is behind the first such one. -/
  | unmatchedClosing (position : Nat)
  /-- Not every parenthesis that opens is closed. -/
  | unmatchedOpening
  /-- A word without digits is no function call. -/
  | unknownWord (word : String)
  /-- Two words joined by a colon name no range. -/
  | badRange (text : String) (cause : Range.Error)
  /-- A word with digits names no cell. -/
  | badCell (text : String) (cause : Address.Error)
  /-- A number has no digit or two points. -/
  | badNumber (text : String)
  /-- A character has no place in formulas. -/
  | unexpected (c : Char) (position : Nat)
  deriving DecidableEq, Repr

/-- The text shown for a syntax error. -/
def SyntaxError.message : SyntaxError → String
  | empty => "Formula is empty"
  | noEquals => "Formula must start with '='"
  | unmatchedClosing position => "Unmatched ')' at position " ++ Nat.repr position
  | unmatchedOpening => "Unmatched '('"
  | unknownWord word => "Unknown identifier '" ++ word ++ "'"
  | badRange text cause => "Invalid range reference '" ++ text ++ "': " ++ cause.message
  | badCell text cause => "Invalid cell reference '" ++ text ++ "': " ++ cause.message
  | badNumber text => "Invalid number '" ++ text ++ "'"
  | unexpected c position =>
    "Unexpected character '" ++ String.singleton c ++ "' at position " ++ Nat.repr position

/-- Why a formula has no value. -/
inductive FormulaError where
  /-- The text is malformed. -/
  | malformed (cause : SyntaxError)
  /-- The formula names the cell it stands in. -/
  | selfReference
  /-- A cell was needed while its own formula was being evaluated. -/
  | circular (reference : String)
  /-- A divisor is zero. -/
  | divisionByZero
  /-- The value is infinite or not a number. -/
  | notFinite
  /-- A function that needs values was given none. -/
  | noValues (f : Aggregate)
  /-- The tokens do not form an expression. -/
  | invalidExpression
  deriving DecidableEq, Repr

namespace FormulaError

/-- The text shown for an error. -/
def message : FormulaError → String
  | malformed cause => "Parse error: " ++ cause.message
  | selfReference => "Circular reference"
  | circular reference => "Circular reference: " ++ reference
  | divisionByZero => "Division by zero"
  | notFinite => "Result is infinite"
  | noValues f => "No values for " ++ f.name
  | invalidExpression => "Invalid expression"

/-- Whether the cause is a cell that depends on itself. -/
def isCircular : FormulaError → Bool
  | selfReference | circular _ => true
  | _ => false

end FormulaError

end Worksheet
