import Worksheet.Proofs.Decimal.Rounding

/-!
# Shortest decimals are near and short

A shortest decimal stands for a number in the rounding interval of its double, so it is off by half
a unit of the significand at most. It has no more places than it takes to come that near: a grid
whose step is no longer than a quarter of that unit has a point in the interval, so no finer one is
tried.

Hence most doubles have a shortest decimal of 28 places at most, and the others are tiny.

## Main definitions

* `Binary.magnitude`: The number a double stands for, without its sign.
* `RoundingInterval.scale`: A quarter of the unit of the significand.

## Theorems

* `RoundingInterval.exists_shortest`: What is found lies on a grid and in the interval.
* `RoundingInterval.isSome_nearest?`: A grid that is fine enough has a point in the interval.
* `Decimal.toRat_shortest_bounds`: A shortest decimal is off by half a unit at most.
* `Decimal.places_shortest`: Doubles that are not tiny have decimals of 28 places at most.
-/

namespace Worksheet

/-- The number a double stands for, without its sign. -/
def Binary.magnitude (b : Binary) : ℚ := b.significand * 2 ^ b.exponent

namespace RoundingInterval

/-- A quarter of the unit of the significand, in units of the interval. -/
def scale (b : Binary) : ℕ := 2 ^ (b.exponent - 2).toNat * 5 ^ (-(b.exponent - 2)).toNat

section OfBinary

variable (b : Binary)

/-- One unit of the interval's scale is a quarter of the step of the binary number. -/
theorem scale_mul_unit : (scale b : ℚ) * 10 ^ (ofBinary b).unit = 2 ^ b.exponent / 4 := by
  have hquarter : (2 : ℚ) ^ b.exponent / 4 = 2 ^ (b.exponent - 2) := by
    rw [zpow_sub₀ (by norm_num)]
    norm_num
  have hunit : (ofBinary b).unit = min (b.exponent - 2) 0 := rfl
  rw [hquarter, hunit, scale]
  generalize b.exponent - 2 = quarter
  rcases Int.le_total 0 quarter with h | h
  · lift quarter to ℕ using h
    simp
  · obtain ⟨k, rfl⟩ : ∃ k : ℕ, quarter = -(k : ℤ) := ⟨(-quarter).toNat, by omega⟩
    have hten : (10 : ℚ) ^ k = 2 ^ k * 5 ^ k := by rw [← mul_pow]; norm_num
    rw [min_eq_left h, zpow_neg, zpow_neg, zpow_natCast, zpow_natCast, hten]
    simp only [Int.toNat_neg_natCast, pow_zero, one_mul, neg_neg, Int.toNat_natCast, Nat.cast_pow,
      Nat.cast_ofNat]
    field_simp

theorem mid_ofBinary : (ofBinary b).mid = 4 * b.significand * scale b := rfl

theorem high_ofBinary : (ofBinary b).high = (ofBinary b).mid + 2 * scale b :=
  Nat.add_mul _ _ _

/-- The lower end is one or two quarters below the double. -/
theorem low_ofBinary (h : b.significand ≠ 0) : (ofBinary b).low + scale b ≤ (ofBinary b).mid ∧
    (ofBinary b).mid ≤ (ofBinary b).low + 2 * scale b := by
  have hlow : (ofBinary b).low =
      (4 * b.significand - if b.isPowerBoundary then 1 else 2) * scale b := rfl
  have hle : 2 * scale b ≤ 4 * b.significand * scale b := Nat.mul_le_mul_right _ (by omega)
  rw [hlow, mid_ofBinary, Nat.sub_mul]
  split <;> omega

end OfBinary

section Shortest

variable (i : RoundingInterval) (rule : TieRule)

/-- What an interval contains lies between its ends, whether they belong to it or not. -/
theorem bounds_of_contains {i : RoundingInterval} {x : ℕ} (h : i.contains x = true) :
    i.low ≤ x ∧ x ≤ i.high := by
  rw [contains] at h
  split at h
  · simpa using h
  · simp only [Bool.and_eq_true, decide_eq_true_eq] at h
    omega

/-- What is found is a multiple of the step of a grid, and lies in the interval. -/
theorem exists_shortest (hlow : i.low ≤ i.mid) (hhigh : i.mid ≤ i.high) (n : ℕ) :
    ∃ s : ℕ, (i.shortest rule n).exponent = i.unit + s ∧
      i.low ≤ (i.shortest rule n).coefficient * 10 ^ s ∧
      (i.shortest rule n).coefficient * 10 ^ s ≤ i.high := by
  induction n with
  | zero =>
      refine ⟨0, (Int.add_zero _).symm, ?_⟩
      rw [shortest, pow_zero, Nat.mul_one]
      exact ⟨hlow, hhigh⟩
  | succ n ih =>
      rw [shortest]
      cases hnearest : i.nearest? rule (n + 1) with
      | none => exact ih
      | some d => exact ⟨n + 1, rfl, bounds_of_contains (contains_of_nearest? hnearest)⟩

/-- No grid is tried that is finer than one with a point in the interval. -/
theorem le_exponent_shortest {s n : ℕ} (h : s = 0 ∨ (i.nearest? rule s).isSome = true)
    (hs : s ≤ n) : i.unit + s ≤ (i.shortest rule n).exponent := by
  induction n with
  | zero =>
      rw [Nat.le_zero.1 hs]
      exact Int.le_of_eq (Int.add_zero _)
  | succ n ih =>
      rw [shortest]
      cases hnearest : i.nearest? rule (n + 1) with
      | some d =>
          dsimp only
          omega
      | none =>
          -- Where no decimal is near at this scale, the search goes on below it, but not past the
          -- one that is known.
          refine ih (Nat.le_of_lt_succ (Nat.lt_of_le_of_ne hs ?_))
          rintro rfl
          rw [hnearest] at h
          simp at h

/-- A grid that is fine enough has a point in the interval. -/
theorem isSome_nearest? {b : Binary} (hb : b.significand ≠ 0) {s : ℕ} (hs : 10 ^ s ≤ scale b) :
    ((ofBinary b).nearest? rule s).isSome = true := by
  refine (nearest?_isSome_iff _ _ _).2 (Or.inl ?_)
  have hlow := (low_ofBinary b hb).1
  have hhigh := high_ofBinary b
  -- The multiple just below the middle is near enough, as a step at this scale is within the
  -- interval.
  have hdiv := Nat.div_add_mod' (ofBinary b).mid (10 ^ s)
  have hmod := Nat.mod_lt (ofBinary b).mid (Nat.pow_pos (n := s) (show 0 < 10 by norm_num))
  rw [contains, Nat.pow_eq]
  split
  · rw [Bool.and_eq_true, decide_eq_true_eq, decide_eq_true_eq]
    omega
  · rw [Bool.and_eq_true, decide_eq_true_eq, decide_eq_true_eq]
    omega

end Shortest

end RoundingInterval

namespace Decimal

/-- A number is less than the power of ten with as many zeros as it has digits. -/
theorem lt_pow_digitCount (n : ℕ) : n < 10 ^ digitCount n := by
  induction n using Nat.strongRecOn with
  | _ n ih =>
      rw [digitCount]
      by_cases h : n < 10
      · rw [if_pos h]
        omega
      · have hrest := ih (n / 10) (by omega)
        rw [if_neg h, Nat.pow_succ]
        omega

variable (rule : TieRule) (b : Binary)

/-- A shortest decimal is off by half a unit of the significand at most. -/
theorem toRat_shortest_bounds : b.magnitude - 2 ^ b.exponent / 2 ≤ (shortest rule b).toRat ∧
    (shortest rule b).toRat ≤ b.magnitude + 2 ^ b.exponent / 2 := by
  rw [shortest, Binary.magnitude]
  by_cases hb : b.significand = 0
  · have hpos : (0 : ℚ) < 2 ^ b.exponent := by positivity
    rw [if_pos hb, hb, toRat]
    simp only [Nat.cast_zero, zero_mul]
    constructor <;> linarith
  · rw [if_neg hb]
    have hscale := RoundingInterval.scale_mul_unit b
    have hmid := RoundingInterval.mid_ofBinary b
    have hhigh := RoundingInterval.high_ofBinary b
    have hlow := RoundingInterval.low_ofBinary b hb
    dsimp only
    generalize RoundingInterval.ofBinary b = i at *
    obtain ⟨s, hexponent, hge, hle⟩ := RoundingInterval.exists_shortest i rule
      (show i.low ≤ i.mid by omega) (show i.mid ≤ i.high by omega) (digitCount i.high)
    generalize i.shortest rule (digitCount i.high) = d at *
    have hunit : (0 : ℚ) < 10 ^ i.unit := by positivity
    -- In units of the interval, the decimal is no further from the double than an end is.
    have hdouble : (i.mid : ℚ) * 10 ^ i.unit = b.significand * 2 ^ b.exponent := by
      rw [hmid]
      push_cast
      rw [mul_assoc, hscale]
      ring
    have hlower : (i.mid : ℚ) ≤ d.coefficient * 10 ^ s + 2 * RoundingInterval.scale b := by
      exact_mod_cast Nat.le_trans hlow.2 (Nat.add_le_add_right hge _)
    have hupper : (d.coefficient : ℚ) * 10 ^ s ≤ i.mid + 2 * RoundingInterval.scale b := by
      exact_mod_cast Nat.le_trans hle (Nat.le_of_eq hhigh)
    rw [toRat, hexponent, zpow_add₀ (by norm_num), zpow_natCast, mul_comm (10 ^ i.unit),
      ← mul_assoc]
    have hlower' := mul_le_mul_of_nonneg_right hlower (le_of_lt hunit)
    have hupper' := mul_le_mul_of_nonneg_right hupper (le_of_lt hunit)
    rw [add_mul, mul_assoc 2, hscale, hdouble] at hlower' hupper'
    constructor <;> linarith

theorem ten_pow_le {s : ℕ} (h : s ≤ 65) : 10 ^ s ≤ 5 ^ (s + 28) :=
  calc 10 ^ s = 2 ^ s * 5 ^ s := by rw [← Nat.mul_pow]
    _ ≤ 2 ^ 65 * 5 ^ s := Nat.mul_le_mul_right _ (Nat.pow_le_pow_right (by norm_num) h)
    _ ≤ 5 ^ 28 * 5 ^ s := Nat.mul_le_mul_right _ (by norm_num)
    _ = 5 ^ (s + 28) := by rw [Nat.pow_add, Nat.mul_comm]

/-- Doubles that are not tiny have shortest decimals of 28 places at most. -/
theorem places_shortest (hexponent : -91 ≤ b.exponent) :
    -(maxPlaces : ℤ) ≤ (shortest rule b).exponent := by
  rw [shortest]
  by_cases hb : b.significand = 0
  · rw [if_pos hb]
    decide
  · rw [if_neg hb]
    dsimp only
    have hunit : (RoundingInterval.ofBinary b).unit = min (b.exponent - 2) 0 := rfl
    have hplaces : maxPlaces = 28 := rfl
    by_cases hfew : -27 < b.exponent
    · -- The unit of the interval has no more places itself.
      have hle := RoundingInterval.le_exponent_shortest (.ofBinary b) rule
        (Or.inl rfl) (Nat.zero_le (digitCount (RoundingInterval.ofBinary b).high))
      omega
    · -- The grid of 28 places has a point in the interval.
      obtain ⟨s, hs⟩ : ∃ s : ℕ, b.exponent - 2 = -((s + 28 : ℕ) : ℤ) :=
        ⟨(-(b.exponent + 26)).toNat, by omega⟩
      have hscale : RoundingInterval.scale b = 5 ^ (s + 28) := by
        rw [RoundingInterval.scale, hs, Int.toNat_neg_natCast, neg_neg, Int.toNat_natCast, pow_zero,
          one_mul]
      have hstep : 10 ^ s ≤ RoundingInterval.scale b := by
        rw [hscale]
        exact ten_pow_le (by omega)
      have htried : s ≤ digitCount (RoundingInterval.ofBinary b).high := by
        have hhigh := RoundingInterval.high_ofBinary b
        have hcount := lt_pow_digitCount (RoundingInterval.ofBinary b).high
        refine Nat.le_of_lt ((Nat.pow_lt_pow_iff_right (by norm_num : 1 < 10)).1 ?_)
        omega
      have hle := RoundingInterval.le_exponent_shortest (.ofBinary b) rule
        (Or.inr (RoundingInterval.isSome_nearest? rule hb hstep)) htried
      omega

end Decimal

end Worksheet
