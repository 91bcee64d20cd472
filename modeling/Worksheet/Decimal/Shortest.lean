import Worksheet.Decimal.Binary

/-!
# Shortest decimals

Every double is the nearest one to a whole interval of real numbers, its rounding interval. The
shortest decimal of a double is the number in that interval with the fewest digits, and of those the
one nearest to the double. It is found by trying ever finer grids of powers of ten: on each grid
only the two neighbours of the double need to be looked at, since the interval contains the double.

Both neighbours may lie in the interval and be equally near. Which one is taken is a matter of the
place the decimal is written in, so it is left to a rule for ties.

All quantities are whole numbers in units of one fixed power of ten, small enough that the double
and the ends of its interval are whole multiples of it.

## Main definitions

* `Decimal`: A coefficient and a power of ten.
* `TieRule`: Which of two neighbours is taken if they are equally near.
* `RoundingInterval`: The ends of the interval and the double, in a common unit.
* `RoundingInterval.nearest?`: The point of a grid to print, if the grid has one in the interval.
* `RoundingInterval.shortest`: The coarsest grid point.
* `Decimal.shortest`: The shortest decimal of a double without its sign.

## Theorems

* `RoundingInterval.contains_of_nearest?`: A grid point that is chosen lies in the interval.
* `RoundingInterval.nearest?_isSome_iff`: A grid has a point in the interval exactly if a neighbour
  of the double is one.
-/

namespace Worksheet

/-- The number `coefficient * 10 ^ exponent`. -/
structure Decimal where
  /-- The digits as a whole number. -/
  coefficient : Nat
  /-- The power of ten that scales it. -/
  exponent : Int
  deriving DecidableEq, Repr

/-- Which of two neighbouring multiples of a step is taken for a number half way between them. -/
inductive TieRule where
  /-- The upper one. -/
  | up
  /-- The one that is an even multiple. -/
  | even
  deriving DecidableEq, Repr

/-- Whether the upper neighbour is taken, where the lower one is the multiple `below` of the
    step and the number lies `rest` above it. -/
def TieRule.takesUpper (rule : TieRule) (below rest step : Nat) : Bool :=
  step < 2 * rest || (step == 2 * rest && (rule == up || below % 2 == 1))

/-- The real numbers that round to a double, in units of `10 ^ unit`. -/
structure RoundingInterval where
  /-- The lower end. -/
  low : Nat
  /-- The double itself. -/
  mid : Nat
  /-- The upper end. -/
  high : Nat
  /-- Whether the ends belong to the interval; they round to the even neighbour. -/
  closed : Bool
  /-- The exponent of the common unit. -/
  unit : Int
  deriving DecidableEq, Repr

namespace RoundingInterval

/-- The interval of a double without its sign. The ends lie half way to its neighbours, so in
    quarters of the significand's unit they are two below and two above, or one below where the
    smaller neighbour is nearer. -/
def ofBinary (b : Binary) : RoundingInterval :=
  let quarter := b.exponent - 2
  let scale := Nat.pow 2 quarter.toNat * Nat.pow 5 (-quarter).toNat
  { low := (4 * b.significand - if b.isPowerBoundary then 1 else 2) * scale
    mid := 4 * b.significand * scale
    high := (4 * b.significand + 2) * scale
    closed := b.significand % 2 == 0
    unit := min quarter 0 }

/-- Whether a number lies in the interval. -/
def contains (i : RoundingInterval) (x : Nat) : Bool :=
  if i.closed then i.low ≤ x && x ≤ i.high else i.low < x && x < i.high

/-- The multiple of `10 ^ s` to print, as a multiple, if one lies in the interval: the neighbour of
    the double that does, and the nearer one if both do, by the given rule for ties. -/
def nearest? (i : RoundingInterval) (rule : TieRule) (s : Nat) : Option Nat :=
  let unit := Nat.pow 10 s
  let below := i.mid / unit
  if i.contains (below * unit) then
    if i.contains ((below + 1) * unit) && rule.takesUpper below (i.mid % unit) unit then
      some (below + 1)
    else
      some below
  else if i.contains ((below + 1) * unit) then some (below + 1)
  else none

/-- The grid point to print on the coarsest grid, none coarser than `10 ^ s`, that has one. -/
def shortest (i : RoundingInterval) (rule : TieRule) : Nat → Decimal
  | 0 => ⟨i.mid, i.unit⟩
  | s + 1 =>
    match i.nearest? rule (s + 1) with
    | some d => ⟨d, i.unit + (s + 1 : Nat)⟩
    | none => i.shortest rule s

theorem contains_of_nearest? {i : RoundingInterval} {rule : TieRule} {s d : Nat}
    (h : i.nearest? rule s = some d) :
    i.contains (d * Nat.pow 10 s) = true := by
  simp only [nearest?] at h
  split at h
  · rename_i hbelow
    split at h
    · rename_i habove
      cases h
      exact (Bool.and_eq_true_iff.1 habove).1
    · cases h
      exact hbelow
  · split at h
    · rename_i habove
      cases h
      exact habove
    · cases h

theorem nearest?_isSome_iff (i : RoundingInterval) (rule : TieRule) (s : Nat) :
    (i.nearest? rule s).isSome = true ↔
      i.contains (i.mid / Nat.pow 10 s * Nat.pow 10 s) = true ∨
        i.contains ((i.mid / Nat.pow 10 s + 1) * Nat.pow 10 s) = true := by
  simp only [nearest?]
  generalize Nat.pow 10 s = unit
  split
  · rename_i hbelow
    split <;> simp [hbelow]
  · rename_i hbelow
    split
    · rename_i habove
      simp [habove]
    · rename_i habove
      simp [hbelow, habove]

end RoundingInterval

namespace Decimal

/-- The number of decimal digits of a whole number, at least one. -/
def digitCount (n : Nat) : Nat := if n < 10 then 1 else digitCount (n / 10) + 1

/-- The shortest decimal of a double without its sign; zero has the single digit 0. -/
def shortest (rule : TieRule) (b : Binary) : Decimal :=
  if b.significand = 0 then ⟨0, 0⟩
  else
    let interval := RoundingInterval.ofBinary b
    interval.shortest rule (digitCount interval.high)

end Decimal

end Worksheet
