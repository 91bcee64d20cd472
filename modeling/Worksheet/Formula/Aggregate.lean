/-!
# Aggregate functions

The functions that a formula can apply to lists of cells.

## Main definitions

* `Aggregate`: The five functions.
* `Aggregate.all`: All of them, in the order in which names are tried.
* `Aggregate.name`: The name in capital letters.
* `Aggregate.ofName?`: The function with a given name, whatever its case.

## Theorems

* `Aggregate.ofName?_name`: Every function is found by its name.
-/

namespace Worksheet

/-- The functions that a formula can apply to lists of cells. -/
inductive Aggregate where
  /-- The sum of the values. -/
  | sum
  /-- Their mean. -/
  | avg
  /-- How many there are. -/
  | count
  /-- The least value. -/
  | min
  /-- The greatest value. -/
  | max
  deriving DecidableEq, Repr

namespace Aggregate

/-- All functions, in the order in which their names are tried. -/
def all : List Aggregate := [count, sum, avg, min, max]

/-- The name in capital letters. -/
def name : Aggregate → String
  | sum => "SUM"
  | avg => "AVG"
  | count => "COUNT"
  | min => "MIN"
  | max => "MAX"

/-- Whether characters spell the name of the function, in any case of letters. -/
def isNamed (f : Aggregate) (spelling : List Char) : Bool :=
  spelling.map Char.toUpper == f.name.toList

/-- The function with a given name, in any case of letters. -/
def ofName? (s : String) : Option Aggregate := all.find? fun f => f.isNamed s.toList

theorem ofName?_name (f : Aggregate) : ofName? f.name = some f := by
  cases f <;> decide

end Aggregate

end Worksheet
