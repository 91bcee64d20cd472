import Worksheet.Decimal.Layout

/-!
# Numbers with a fixed number of places

A double is shown with a fixed number of decimal places. What is rounded is the shortest decimal of
the double, the upper one of two equally near, and not its exact value, so `1.005` is a tie; ties go
away from zero. A decimal has at most 28 places: digits behind them are first rounded off on their
own. Coefficients have at most 96 bits; a number that does not fit is shown from its exact value
instead, where ties go to the even neighbour.

## Main definitions

* `Decimal.maxPlaces`, `Decimal.coefficientLimit`: The limits of a decimal.
* `roundHalfUp`, `roundHalfEven`: A quotient rounded to a whole number.
* `Decimal.scaledTo`: A decimal in units of the last place, rounded.
* `Fixed`: A sign and a whole number of units of the last place.
* `Fixed.ofBinary`: A double with a number of places.
* `Fixed.text`: The written form; zero has no sign.

## Theorems

* `roundHalfUp_bounds`, `roundHalfEven_bounds`: Rounding moves by at most half a unit.
-/

namespace Worksheet

/-- The quotient rounded to the nearest whole number, a tie upwards. -/
def roundHalfUp (num den : Nat) : Nat := (2 * num + den) / (2 * den)

/-- The quotient rounded to the nearest whole number, a tie to the even one. -/
def roundHalfEven (num den : Nat) : Nat :=
  let whole := num / den
  let twice := 2 * (num % den)
  if den < twice || (twice == den && whole % 2 == 1) then whole + 1 else whole

namespace Decimal

/-- A decimal has at most this many places behind the point. -/
def maxPlaces : Nat := 28

/-- The coefficient of a decimal is below this number, `2 ^ 96`. -/
def coefficientLimit : Nat := 0x1000000000000000000000000

/-- The decimal in units of `10 ^ -places`, rounded with ties away from zero. -/
def scaledTo (d : Decimal) (places : Nat) : Nat :=
  let shift := d.exponent + places
  if 0 ≤ shift then d.coefficient * Nat.pow 10 shift.toNat
  else roundHalfUp d.coefficient (Nat.pow 10 (-shift).toNat)

/-- The decimal with at most `maxPlaces` places. -/
def limited (d : Decimal) : Decimal :=
  if d.exponent < -(maxPlaces : Int) then ⟨d.scaledTo maxPlaces, -(maxPlaces : Int)⟩ else d

/-- Whether the whole part of the decimal fits a coefficient. -/
def wholePartFits (d : Decimal) : Bool :=
  d.coefficient * Nat.pow 10 d.exponent.toNat / Nat.pow 10 (-d.exponent).toNat < coefficientLimit

/-- The decimal in units of `10 ^ -places`, if the result fits a coefficient. -/
def fixed? (d : Decimal) (places : Nat) : Option Nat :=
  let scaled := d.limited.scaledTo places
  if d.wholePartFits && scaled < coefficientLimit then some scaled else none

end Decimal

/-- The number `units * 10 ^ -places`, negative or not. -/
structure Fixed where
  /-- Whether the number is negative. -/
  negative : Bool
  /-- The number in units of the last place. -/
  units : Nat
  /-- How many places stand behind the point. -/
  places : Nat
  deriving DecidableEq, Repr

namespace Fixed

/-- The exact value of a double in units of `10 ^ -places`, rounded with ties to the even one. -/
def exactUnits (b : Binary) (places : Nat) : Nat :=
  roundHalfEven (b.significand * Nat.pow 2 b.exponent.toNat * Nat.pow 10 places)
    (Nat.pow 2 (-b.exponent).toNat)

/-- A double with a number of places: its shortest decimal rounded, or its exact value where that
    decimal does not fit. -/
def ofBinary (b : Binary) (places : Nat) : Fixed where
  negative := b.negative
  units := ((Decimal.shortest .up b).fixed? places).getD (exactUnits b places)
  places := places

/-- Whether a sign is written: zero has none. -/
def showsSign (f : Fixed) : Bool := f.negative && f.units != 0

/-- The digits before the point. -/
def whole (f : Fixed) : List Char := Decimal.wholeDigits (Decimal.digits f.units) f.places

/-- The point and the digits behind it; nothing without places. -/
def tail (f : Fixed) : List Char :=
  if f.places = 0 then [] else '.' :: Decimal.fractionDigits (Decimal.digits f.units) f.places

/-- The sign, if one is written. -/
def sign (f : Fixed) : List Char := if f.showsSign then ['-'] else []

/-- The written form. -/
def text (f : Fixed) : List Char := f.sign ++ f.whole ++ f.tail

end Fixed

theorem roundHalfUp_bounds (num den : Nat) (h : 0 < den) :
    2 * (roundHalfUp num den * den) ≤ 2 * num + den ∧
      2 * num < 2 * (roundHalfUp num den * den) + den := by
  have hdiv := Nat.div_add_mod (2 * num + den) (2 * den)
  have hmod := Nat.mod_lt (2 * num + den) (show 0 < 2 * den by omega)
  have hrw : 2 * den * ((2 * num + den) / (2 * den)) = 2 * (roundHalfUp num den * den) := by
    rw [roundHalfUp, Nat.mul_comm ((2 * num + den) / (2 * den)) den, Nat.mul_assoc]
  omega

theorem roundHalfEven_bounds (num den : Nat) (h : 0 < den) :
    2 * (roundHalfEven num den * den) ≤ 2 * num + den ∧
      2 * num ≤ 2 * (roundHalfEven num den * den) + den := by
  have hdiv := Nat.div_add_mod num den
  have hmod := Nat.mod_lt num h
  have hcomm : den * (num / den) = num / den * den := Nat.mul_comm _ _
  simp only [roundHalfEven]
  split
  · rename_i hup
    simp only [Bool.or_eq_true, Bool.and_eq_true, decide_eq_true_eq, beq_iff_eq] at hup
    rw [Nat.succ_mul (num / den) den]
    omega
  · rename_i hup
    simp only [Bool.or_eq_true, Bool.and_eq_true, decide_eq_true_eq, beq_iff_eq] at hup
    omega

end Worksheet
