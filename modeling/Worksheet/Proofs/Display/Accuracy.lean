import Worksheet.Proofs.Decimal.Nearness
import Worksheet.Proofs.Decimal.Written

/-!
# Accuracy of displayed numbers

What a cell shows for a number, apart from the commas, is the shortest decimal of the number rounded
to the places shown, if that fits a coefficient. There is one exception. A decimal with more than 28
places is rounded to 28 places first, and where this reaches a midpoint, the number shown is one
unit too large: `4.9e-28` becomes `5e-28` and is shown as `1e-27` with 27 places, not as zero.

The exception needs a number below `2 ^ -39`, because others have no more than 28 places.

## Theorems

* `tiny_of_belowMidpoint`: Only tiny numbers are brought to a midpoint.
* `Fixed.units_ofBinary`: The units that are shown.
* `DisplayStyle.filter_render`: A text without its commas is the number that is laid out.
* `DisplayStyle.render_writes_rounded`: The text shows the rounded decimal, with this exception.
* `DisplayStyle.render_rounds_twice`: The exception arises.
-/

namespace Worksheet

open Decimal

section Tiny

variable {b : Binary} {rule : TieRule} {places : ℕ}

/-- Only tiny numbers are brought to a midpoint. -/
theorem tiny_of_belowMidpoint (h : BelowMidpoint (shortest rule b).toRat maxPlaces places) :
    b.exponent < -91 := by
  by_contra hexponent
  rcases exists_units _ (places_shortest rule b (Int.le_of_not_gt hexponent)) with ⟨n, hn⟩
  exact not_belowMidpoint_of_units (toRat_nonneg _) hn h

theorem toRat_shortest_le_one (rule : TieRule) (hsignificand : b.significand < 2 ^ 53)
    (h : b.exponent < -91) : (shortest rule b).toRat ≤ 1 := by
  have hunit : (2 : ℚ) ^ b.exponent ≤ 1 / 2 ^ 92 :=
    calc (2 : ℚ) ^ b.exponent ≤ 2 ^ (-92 : ℤ) := zpow_le_zpow_right₀ (by norm_num) (by omega)
      _ = 1 / 2 ^ 92 := by norm_num
  have hcount : (b.significand : ℚ) + 1 ≤ 2 ^ 53 := by exact_mod_cast hsignificand
  have hpos : (0 : ℚ) < 2 ^ b.exponent := by positivity
  have hle := (toRat_shortest_bounds rule b).2
  rw [Binary.magnitude] at hle
  nlinarith

/-- There is room for a tiny number, and for one unit more. -/
theorem rounded_lt_of_tiny (hsignificand : b.significand < 2 ^ 53) (h : b.exponent < -91)
    (hplaces : places ≤ maxPlaces) :
    rounded (shortest rule b).toRat places + 1 < coefficientLimit := by
  have hq := toRat_shortest_le_one rule hsignificand h
  -- A value below one, with at most 28 places, stays far below the limit.
  have hscale : (10 : ℚ) ^ places ≤ 10 ^ 28 := pow_le_pow_right₀ (by norm_num) hplaces
  have hlt : rounded (shortest rule b).toRat places < 10 ^ 28 + 1 := by
    have hnonneg := toRat_nonneg (shortest rule b)
    rw [rounded, Nat.floor_lt (by positivity)]
    push_cast
    nlinarith
  have hlimit : coefficientLimit = 2 ^ 96 := rfl
  omega

end Tiny

section Shown

variable {b : Binary} {places : ℕ}

/-- The units that are shown, if the rounded decimal fits. -/
theorem Fixed.units_ofBinary (hsignificand : b.significand < 2 ^ 53) (hplaces : places ≤ maxPlaces)
    (hfits : rounded (shortest .up b).toRat places < coefficientLimit) :
    (Fixed.ofBinary b places).units = (shortest .up b).limited.scaledTo places := by
  -- Rounding twice may add one unit, but only to a tiny value, for which there is room.
  have hroom : (shortest .up b).limited.scaledTo places < coefficientLimit := by
    rw [scaledTo_limited _ _ hplaces]
    by_cases hbelow : BelowMidpoint (shortest .up b).toRat maxPlaces places
    · rw [if_pos hbelow]
      exact rounded_lt_of_tiny hsignificand (tiny_of_belowMidpoint hbelow) hplaces
    · rw [if_neg hbelow]
      exact hfits
  rw [ofBinary, fixed?_eq_some _ _ hplaces hroom]
  rfl

namespace DisplayStyle

variable {x : Float}

/-- A text without its commas is the number that is laid out. -/
theorem filter_render (hx : Binary.ofFloat? x = some b) (hplaces : places ≤ maxPlaces) :
    (render { decimals := places } (.ok (some x))).toList.filter (· ≠ ',') =
      (Fixed.ofBinary b places).text := by
  have hmin : ({ decimals := places } : DisplayStyle).places = places := Nat.min_eq_left hplaces
  have hlead : ({ decimals := places } : DisplayStyle).lead.toList = [] := rfl
  rw [render, renderNumber, hx]
  dsimp only
  rw [renderBinary, hmin, String.toList_ofList, hlead, List.append_nil]
  generalize Fixed.ofBinary b places = f
  have hsign : f.sign.filter (· ≠ ',') = f.sign := by
    unfold Fixed.sign
    split <;> rfl
  have hwhole : ',' ∉ f.whole := fun h => absurd (Fixed.isDigit_of_mem_whole h) (by decide)
  -- Behind the grouped digits stand a point and digits, but no comma.
  have htail : f.tail.filter (· ≠ ',') = f.tail := by
    refine List.filter_eq_self.2 fun c hc => decide_eq_true ?_
    rintro rfl
    rcases Fixed.cases_of_mem_tail hc with h | h
    · exact absurd h (by decide)
    · exact absurd h (by decide)
  rw [List.filter_append, List.filter_append, hsign, filter_grouped _ hwhole, htail, Fixed.text]

/-- The text shown for a number without a currency is its shortest decimal, rounded to the places
    shown, if that fits a coefficient; only for a tiny number just below a midpoint, the text shows
    one unit more. -/
theorem render_writes_rounded (hx : Binary.ofFloat? x = some b) (hplaces : places ≤ maxPlaces)
    (hfits : rounded (shortest .up b).toRat places < coefficientLimit) :
    let q := (shortest .up b).toRat
    let text := (render { decimals := places } (.ok (some x))).toList.filter (· ≠ ',')
    (¬ BelowMidpoint q maxPlaces places → ∃ n : Numeral, n.chars = text ∧
      Fixed.Writes ⟨b.negative, rounded q places, places⟩ n) ∧
    (BelowMidpoint q maxPlaces places → b.exponent < -91 ∧ ∃ n : Numeral, n.chars = text ∧
      Fixed.Writes ⟨b.negative, rounded q places + 1, places⟩ n) := by
  intro q text
  have hunits := Fixed.units_ofBinary (Binary.significand_lt hx) hplaces hfits
  rw [scaledTo_limited _ _ hplaces] at hunits
  have htext : (Fixed.ofBinary b places).numeral.chars = text := by
    rw [Fixed.chars_numeral]
    exact (filter_render hx hplaces).symm
  have hwrites := (Fixed.ofBinary b places).writes_numeral
  have hshown : Fixed.ofBinary b places = ⟨b.negative, (Fixed.ofBinary b places).units, places⟩ :=
    rfl
  constructor
  · intro hbelow
    rw [if_neg hbelow] at hunits
    rw [hunits] at hshown
    exact ⟨_, htext, hshown ▸ hwrites⟩
  · -- The digits cut off first bring the value up to the midpoint, and it goes up from there.
    intro hbelow
    rw [if_pos hbelow] at hunits
    rw [hunits] at hshown
    exact ⟨tiny_of_belowMidpoint hbelow, _, htext, hshown ▸ hwrites⟩

-- The double next to this number is nearer to zero, so its exact value would be rounded the other
-- way.
theorem render_writes_rounded_of_tie :
    let b : Binary := ⟨true, 0x13488a3d70a3d7, -42⟩
    let text := (render { decimals := 2 } (.ok (some (-1234.135)))).toList.filter (· ≠ ',')
    Binary.ofFloat? (-1234.135) = some b ∧ 2 ≤ maxPlaces ∧
      rounded (shortest .up b).toRat 2 < coefficientLimit ∧
      ∃ n : Numeral, n.chars = text ∧ Fixed.Writes ⟨true, 123414, 2⟩ n := by
  intro b text
  have hx : Binary.ofFloat? (-1234.135) = some b := by decide
  -- The shortest decimal is exactly halfway between two cents.
  have hshortest : shortest .up b = ⟨1234135, -3⟩ := by decide +kernel
  have hrounded : rounded (shortest .up b).toRat 2 = 123414 := by
    rw [hshortest]
    decide +kernel
  have hfits : rounded (shortest .up b).toRat 2 < coefficientLimit := by
    rw [hrounded]
    decide
  have hbelow : ¬ BelowMidpoint (shortest .up b).toRat maxPlaces 2 := by
    rw [hshortest]
    decide +kernel
  refine ⟨hx, by decide, hfits, ?_⟩
  rcases (render_writes_rounded hx (by decide) hfits).1 hbelow with ⟨n, htext, hwrites⟩
  rw [hrounded] at hwrites
  exact ⟨n, htext, hwrites⟩

/-- A number just below a midpoint that is not shown as its rounded decimal, although this fits: it
    is less than half a unit, and one unit is shown. -/
theorem render_rounds_twice :
    let b : Binary := ⟨false, 0x136930baf7a143, -143⟩
    let q := (shortest .up b).toRat
    let text := (render { decimals := 27 } (.ok (some 4.9e-28))).toList.filter (· ≠ ',')
    Binary.ofFloat? 4.9e-28 = some b ∧ 27 ≤ maxPlaces ∧ q = 49 / 10 ^ 29 ∧ rounded q 27 = 0 ∧
      rounded q 27 < coefficientLimit ∧
      ¬ ∃ n : Numeral, n.chars = text ∧ Fixed.Writes ⟨b.negative, rounded q 27, 27⟩ n := by
  intro b q text
  have hx : Binary.ofFloat? 4.9e-28 = some b := by decide
  have hq : q = 49 / 10 ^ 29 := by
    have hshortest : shortest .up b = ⟨49, -29⟩ := by decide +kernel
    simp only [q, hshortest]
    norm_num [toRat]
  have hrounded : rounded q 27 = 0 := by
    rw [hq]
    decide +kernel
  have hfits : rounded q 27 < coefficientLimit := by
    rw [hrounded]
    decide
  have hunits : (Fixed.ofBinary b 27).units = 1 := by
    have hbelow : BelowMidpoint q maxPlaces 27 := by
      rw [hq]
      decide +kernel
    rw [Fixed.units_ofBinary (Binary.significand_lt hx) (by decide) hfits,
      scaledTo_limited _ _ (by decide), if_pos hbelow]
    exact congrArg (· + 1) hrounded
  refine ⟨hx, by decide, hq, hrounded, hfits, ?_⟩
  rintro ⟨n, htext, hwrites⟩
  -- The digits of the text are one unit.
  have hone := (Fixed.ofBinary b 27).writes_numeral.value_filter
  have hzero := hwrites.value_filter
  rw [Fixed.chars_numeral, ← filter_render hx (by decide), hunits] at hone
  rw [htext, hone] at hzero
  exact absurd (hzero.trans hrounded) (by decide)

end DisplayStyle

end Shown

end Worksheet
