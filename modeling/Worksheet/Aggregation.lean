import Worksheet.Formula.Error

/-!
# Aggregation

What the aggregate functions make of a list of values. Empty cells have been dropped before, so they
count neither towards the number of values nor towards the mean. Values are added from left to
right, starting from negative zero: that is the one number which leaves every first summand as it
is, so the sum of nothing is negative zero.

## Main definitions

* `Aggregate.total`: The sum of values, from left to right.
* `Aggregate.apply`: A function applied to values.

## Theorems

* `Aggregate.apply_nil`: What becomes of no values at all.
* `Aggregate.total_append_singleton`: A further value is added last.
-/

namespace Worksheet

namespace Aggregate

/-- The sum of values, added from left to right. -/
def total (values : List Float) : Float := values.foldl (· + ·) (-0.0)

/-- The least of two numbers. A second argument that is not a number is never taken; a first one
    that is not a number is returned, but a fold over values starts from infinity and so never has
    one. -/
def lesser (x y : Float) : Float := if y < x then y else x

/-- The greatest of two numbers, where a second argument that is not a number is never taken and a
    first one that is not a number is returned. -/
def greater (x y : Float) : Float := if x < y then y else x

/-- A function applied to values. Mean, least and greatest value need at least one. -/
def apply (f : Aggregate) (values : List Float) : Except FormulaError Float :=
  match f with
  | sum => .ok (total values)
  | count => .ok values.length.toFloat
  | avg =>
    if values.isEmpty then .error (.noValues avg)
    else .ok (total values / values.length.toFloat)
  | min =>
    if values.isEmpty then .error (.noValues min)
    else .ok (values.foldl lesser (1.0 / 0.0))
  | max =>
    if values.isEmpty then .error (.noValues max)
    else .ok (values.foldl greater (-1.0 / 0.0))

theorem apply_nil (f : Aggregate) :
    f.apply [] =
      match f with
      | sum => .ok (-0.0)
      | count => .ok (0 : Nat).toFloat
      | other => .error (.noValues other) := by
  cases f <;> rfl

theorem total_append_singleton (values : List Float) (x : Float) :
    total (values ++ [x]) = total values + x := by
  rw [total, List.foldl_append]
  rfl

end Aggregate

end Worksheet
