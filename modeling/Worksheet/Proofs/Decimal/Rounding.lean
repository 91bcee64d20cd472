import Mathlib.Algebra.Order.Field.Power
import Mathlib.Algebra.Order.Floor.Semifield
import Mathlib.Data.Rat.Floor
import Mathlib.Tactic.FieldSimp
import Mathlib.Tactic.Linarith
import Mathlib.Tactic.Ring
import Worksheet.Decimal.Fixed

/-!
# Rounding decimals

A decimal is a rational number, and rounding it to a number of places is a matter of that number
alone: it is the whole part of so many units and a half.

A decimal with more places than there is room for is rounded twice, first to the places there are
and then to those that are shown. Rounding twice is rounding once except just below a midpoint: the
first rounding may reach the midpoint, and then the second one goes up. How far below is half a unit
of the last place there is, so numbers with no more places are never affected.

## Main definitions

* `Decimal.toRat`: The number that a decimal stands for.
* `rounded`: A number in units of a place, rounded with ties away from zero.
* `BelowMidpoint`: A number that a first rounding brings to the midpoint above it.

## Theorems

* `rounded_rounded`: Rounding twice is rounding once, but one more just below a midpoint.
* `not_belowMidpoint_of_units`: Numbers with few places are not affected.
* `Decimal.scaledTo_eq_rounded`: Decimals are rounded as numbers are.
* `Decimal.scaledTo_limited`: A decimal cut to the places there are, and then rounded.
* `Decimal.fixed?_eq_some`: A decimal is shown if its units fit.
-/

namespace Worksheet

/-- A number that is not negative in units of `10 ^ -places`, rounded with ties away from zero. -/
def rounded (q : ℚ) (places : ℕ) : ℕ := ⌊q * 10 ^ places + 1 / 2⌋₊

/-- Half a unit of the place at the limit is enough to reach the midpoint above the number. -/
def BelowMidpoint (q : ℚ) (limit places : ℕ) : Prop :=
  places < limit ∧ (rounded q places + 1 / 2) / 10 ^ places ≤ q + 1 / 2 / 10 ^ limit

instance (q : ℚ) (limit places : ℕ) : Decidable (BelowMidpoint q limit places) :=
  inferInstanceAs (Decidable (_ ∧ _))

section Numbers

variable {q : ℚ} {limit places n : ℕ}

/-- A number is rounded to what it is nearest to, with halves going up. -/
theorem rounded_eq_iff (places : ℕ) (hq : 0 ≤ q) :
    rounded q places = n ↔ n ≤ q * 10 ^ places + 1 / 2 ∧ q * 10 ^ places + 1 / 2 < n + 1 :=
  Nat.floor_eq_iff (by positivity)

/-- A value rounds to `n` at least exactly when it reaches `n` with a half added. -/
theorem le_rounded_iff (hq : 0 ≤ q) : n ≤ rounded q places ↔ n ≤ q * 10 ^ places + 1 / 2 :=
  Nat.le_floor_iff (by positivity)

/-- A whole number of units is not rounded. -/
theorem rounded_of_units (h : q * 10 ^ places = n) : rounded q places = n := by
  rw [rounded, h, Nat.floor_eq_iff (by positivity)]
  constructor <;> linarith

/-- Just below a midpoint, in units of the place at the limit, of which there are `2 * half` in one
    of the place shown. -/
theorem belowMidpoint_iff {half : ℕ} (hlimit : (10 : ℚ) ^ limit = 10 ^ places * (2 * half))
    (hplaces : places < limit) : BelowMidpoint q limit places ↔
      ((2 * rounded q places + 1) * half : ℕ) ≤ q * 10 ^ limit + 1 / 2 := by
  have hpos : (0 : ℚ) < 10 ^ limit := by positivity
  have hscale : (rounded q places + 1 / 2 : ℚ) / 10 ^ places * 10 ^ limit =
      ((2 * rounded q places + 1) * half : ℕ) := by
    rw [hlimit]
    push_cast
    field_simp
  have hunit : (1 / 2 / 10 ^ limit : ℚ) * 10 ^ limit = 1 / 2 := by field_simp
  rw [BelowMidpoint, and_iff_right hplaces, ← mul_le_mul_iff_of_pos_right hpos, hscale,
    add_mul q, hunit]

/-- A whole number of units at the limit, rounded. -/
theorem rounded_div {half : ℕ} (hlimit : (10 : ℚ) ^ limit = 10 ^ places * (2 * half))
    (hhalf : 0 < half) : rounded (n / 10 ^ limit) places = (n + half) / (2 * half) := by
  have hpos : (0 : ℚ) < half := by exact_mod_cast hhalf
  have hunits : (n : ℚ) / 10 ^ limit * 10 ^ places + 1 / 2 =
      ((n + half : ℕ) : ℚ) / ((2 * half : ℕ) : ℚ) := by
    rw [hlimit]
    push_cast
    field_simp
  rw [rounded, hunits, Nat.floor_div_eq_div]

/-- Rounding twice is rounding once, but one more just below a midpoint. -/
theorem rounded_rounded (hq : 0 ≤ q) (hplaces : places ≤ limit) :
    rounded (rounded q limit / 10 ^ limit) places =
      if BelowMidpoint q limit places then rounded q places + 1 else rounded q places := by
  rcases Nat.eq_or_lt_of_le hplaces with rfl | hlt
  · rw [if_neg fun h => Nat.lt_irrefl _ h.1]
    exact rounded_of_units (by field_simp)
  · -- One unit of the place shown is an even number of units of the place at the limit.
    obtain ⟨k, rfl⟩ := Nat.exists_eq_add_of_lt hlt
    have hlimit : (10 : ℚ) ^ (places + k + 1) = 10 ^ places * (2 * (5 * 10 ^ k : ℕ)) := by
      push_cast
      ring
    have hhalf : 0 < 5 * 10 ^ k := by positivity
    generalize 5 * 10 ^ k = half at hlimit hhalf
    rw [rounded_div hlimit hhalf, if_congr (belowMidpoint_iff hlimit hlt) rfl rfl]
    simp only [← le_rounded_iff hq]
    have hunits : q * 10 ^ (places + k + 1) = q * 10 ^ places * (2 * half) := by
      rw [hlimit]
      ring
    have honce := (rounded_eq_iff places hq).1 rfl
    have hfirst := (rounded_eq_iff (places + k + 1) hq).1 rfl
    rw [hunits] at hfirst
    have hpos : (1 : ℚ) ≤ half := by exact_mod_cast hhalf
    generalize rounded q (places + k + 1) = m at *
    generalize rounded q places = r at *
    generalize q * 10 ^ places = y at *
    -- The first rounding moves by half a unit, so it stays between the midpoints on both sides.
    have hlower : 2 * r * half ≤ m + half := by
      by_contra h
      have h' : (m + half + 1 : ℚ) ≤ 2 * r * half := by exact_mod_cast Nat.lt_of_not_le h
      nlinarith
    have hupper : m < (2 * r + 3) * half := by
      by_contra h
      have h' : ((2 * r + 3) * half : ℚ) ≤ m := by exact_mod_cast Nat.le_of_not_lt h
      nlinarith
    by_cases hmid : (2 * r + 1) * half ≤ m
    · rw [if_pos hmid]
      refine Nat.div_eq_of_lt_le ?_ ?_ <;> nlinarith
    · rw [if_neg hmid]
      refine Nat.div_eq_of_lt_le ?_ ?_ <;> nlinarith

/-- Numbers with no more places than there are at the limit are not affected. -/
theorem not_belowMidpoint_of_units (hq : 0 ≤ q) (h : q * 10 ^ limit = n) :
    ¬ BelowMidpoint q limit places := by
  intro hbelow
  have hsame : (rounded q limit : ℚ) / 10 ^ limit = q := by
    rw [rounded_of_units h, ← h]
    field_simp
  have htwice := rounded_rounded hq (Nat.le_of_lt hbelow.1)
  rw [hsame, if_pos hbelow] at htwice
  omega

/-- The whole part is no more than what the number is rounded to. -/
theorem floor_le_rounded (places : ℕ) (hq : 0 ≤ q) : ⌊q⌋₊ ≤ rounded q places := by
  rw [le_rounded_iff hq]
  have hfloor := Nat.floor_le hq
  have hscale : q ≤ q * 10 ^ places := le_mul_of_one_le_right hq (one_le_pow₀ (by norm_num))
  linarith

end Numbers

/-! ## Decimals -/

/-- Rounding a quotient of naturals is the whole part of it and a half. -/
theorem roundHalfUp_eq_floor {num den : ℕ} (h : 0 < den) :
    roundHalfUp num den = ⌊(num : ℚ) / den + 1 / 2⌋₊ := by
  have hpos : (0 : ℚ) < den := by exact_mod_cast h
  have hsum : (num : ℚ) / den + 1 / 2 = ((2 * num + den : ℕ) : ℚ) / ((2 * den : ℕ) : ℚ) := by
    push_cast
    field_simp
  rw [hsum, Nat.floor_div_eq_div, roundHalfUp]

namespace Decimal

/-- The number that a decimal stands for. -/
def toRat (d : Decimal) : ℚ := d.coefficient * 10 ^ d.exponent

variable (d : Decimal) (places : ℕ)

theorem toRat_nonneg : 0 ≤ d.toRat := by
  unfold toRat
  positivity

theorem toRat_mul_pow : d.toRat * 10 ^ places = d.coefficient * 10 ^ (d.exponent + places) := by
  rw [toRat, zpow_add₀ (by norm_num), zpow_natCast, mul_assoc]

/-- Decimals are rounded as numbers are. -/
theorem scaledTo_eq_rounded : d.scaledTo places = rounded d.toRat places := by
  have hunits := d.toRat_mul_pow places
  rw [scaledTo]
  simp only [Nat.pow_eq]
  generalize d.exponent + (places : ℤ) = shift at *
  -- With more places than the decimal has nothing is rounded; with fewer it is divided by a power
  -- of ten.
  by_cases hshift : 0 ≤ shift
  · lift shift to ℕ using hshift
    rw [if_pos (Int.natCast_nonneg shift), Int.toNat_natCast, rounded_of_units]
    rw [hunits, zpow_natCast]
    push_cast
    rfl
  · have hneg : shift = -((-shift).toNat : ℤ) := by omega
    rw [if_neg hshift]
    generalize (-shift).toNat = k at *
    rw [roundHalfUp_eq_floor (Nat.pow_pos (by norm_num)), rounded, hunits, hneg, zpow_neg,
      zpow_natCast, ← div_eq_mul_inv, Nat.cast_pow, Nat.cast_ofNat]

/-- A decimal with at most so many places is a whole number of units. -/
theorem exists_units {limit : ℕ} (h : -(limit : ℤ) ≤ d.exponent) :
    ∃ n : ℕ, d.toRat * 10 ^ limit = n := by
  have hshift : d.exponent + limit = ((d.exponent + limit).toNat : ℤ) := by omega
  refine ⟨d.coefficient * 10 ^ (d.exponent + limit).toNat, ?_⟩
  rw [toRat_mul_pow, hshift, zpow_natCast]
  push_cast
  rfl

/-- Cutting a decimal to the places there is room for is rounding to them. -/
theorem toRat_limited : d.limited.toRat = rounded d.toRat maxPlaces / 10 ^ maxPlaces := by
  unfold limited
  by_cases h : d.exponent < -(maxPlaces : ℤ)
  · rw [if_pos h, toRat, scaledTo_eq_rounded, zpow_neg, zpow_natCast, div_eq_mul_inv]
  · rw [if_neg h]
    rcases d.exists_units (Int.le_of_not_gt h) with ⟨n, hn⟩
    rw [rounded_of_units hn, ← hn]
    field_simp

/-- The whole part is checked on the value, not on its digits. -/
theorem wholePartFits_iff : d.wholePartFits = true ↔ ⌊d.toRat⌋₊ < coefficientLimit := by
  have hquotient : d.toRat = ((d.coefficient * Nat.pow 10 d.exponent.toNat : ℕ) : ℚ) /
      ((Nat.pow 10 (-d.exponent).toNat : ℕ) : ℚ) := by
    have hexponent : d.exponent = (d.exponent.toNat : ℤ) - ((-d.exponent).toNat : ℤ) := by omega
    rw [toRat, hexponent, zpow_sub₀ (by norm_num), zpow_natCast, zpow_natCast, ← hexponent]
    simp only [Nat.pow_eq]
    push_cast
    exact mul_div_assoc' _ _ _
  rw [wholePartFits, decide_eq_true_iff, hquotient, Nat.floor_div_eq_div]

/-- Cutting and then rounding is rounding once, but one more just below a midpoint. -/
theorem scaledTo_limited (hplaces : places ≤ maxPlaces) : d.limited.scaledTo places =
    if BelowMidpoint d.toRat maxPlaces places then rounded d.toRat places + 1
    else rounded d.toRat places := by
  rw [scaledTo_eq_rounded, toRat_limited, rounded_rounded d.toRat_nonneg hplaces]

/-- If the units fit, so does the whole part, and these are the units. -/
theorem fixed?_eq_some (hplaces : places ≤ maxPlaces)
    (hfits : d.limited.scaledTo places < coefficientLimit) :
    d.fixed? places = some (d.limited.scaledTo places) := by
  have hwhole : d.wholePartFits = true := by
    have hfloor := floor_le_rounded places d.toRat_nonneg
    have hle : rounded d.toRat places ≤ d.limited.scaledTo places := by
      rw [scaledTo_limited d places hplaces]
      split
      · exact Nat.le_succ _
      · exact Nat.le_refl _
    rw [wholePartFits_iff]
    omega
  rw [fixed?]
  simp only [hwhole, Bool.true_and, decide_eq_true hfits, if_true]

end Decimal

end Worksheet
