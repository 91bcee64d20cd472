import Worksheet.Decimal.Digits
import Worksheet.Decimal.Shortest

/-!
# Layouts of decimals

How the digits of a number are laid out as text: positionally, with a point among or before the
digits, or with one digit before the point and the power of ten after the letter `e`.

## Main definitions

* `Decimal.leadingExponent`: The power of ten of the first digit.
* `Decimal.positional`: All digits up to the units, and those behind the point if there are any.
* `Decimal.exponential`: One digit, the others behind the point, and the signed power of ten.
* `Decimal.wholeDigits`, `Decimal.fractionDigits`: A run of digits cut at its point.
* `Decimal.pointed`: A run of digits with a point before its last few.

## Theorems

* `Decimal.pointed_zero`: Without places there is no point.
-/

namespace Worksheet

namespace Decimal

/-- The power of ten of the first digit. -/
def leadingExponent (d : Decimal) : Int := d.exponent + ((digits d.coefficient).length - 1 : Nat)

/-- A run of digits filled up with zeros in front, so that there are more of them than places. -/
def filled (run : List Char) (places : Nat) : List Char :=
  List.replicate (places + 1 - run.length) '0' ++ run

/-- The digits before the point. -/
def wholeDigits (run : List Char) (places : Nat) : List Char :=
  (filled run places).take ((filled run places).length - places)

/-- The digits behind the point. -/
def fractionDigits (run : List Char) (places : Nat) : List Char :=
  (filled run places).drop ((filled run places).length - places)

/-- A run of digits with a point before the last `places` of them, and none if there are none. -/
def pointed (run : List Char) (places : Nat) : List Char :=
  if places = 0 then wholeDigits run places
  else wholeDigits run places ++ '.' :: fractionDigits run places

/-- Every digit at its place, and no point if there is no fraction. -/
def positional (d : Decimal) : List Char :=
  pointed (digits d.coefficient ++ List.replicate d.exponent.toNat '0') (-d.exponent).toNat

/-- One digit before the point, the others behind it, and the power of ten with its sign. -/
def exponential (d : Decimal) : List Char :=
  let run := digits d.coefficient
  let fraction := run.drop 1
  let sign := if d.leadingExponent < 0 then '-' else '+'
  run.take 1 ++ (if fraction.isEmpty then [] else '.' :: fraction)
    ++ 'e' :: sign :: digits d.leadingExponent.natAbs

theorem pointed_zero (run : List Char) (h : run ≠ []) : pointed run 0 = run := by
  have hlen : 0 < run.length := List.length_pos_iff.2 h
  have hfill : 1 - run.length = 0 := by omega
  simp [pointed, wholeDigits, filled, hfill]

end Decimal

end Worksheet
