import Worksheet.Proofs.Display
import Worksheet.Snapshot.Numeral

/-!
# Written forms with a fixed number of places

What it means that a number is written with a fixed number of places: its digits are those before
the point followed by as many behind it as there are places, with at least one before the point and
no needless zero in front, and a minus sign stands before a negative number that is not zero.

A number is laid out by filling up its digits with zeros in front, until there are more of them than
places, and cutting the run at the point. The zeros do not change the value, and they stop at the
digit before the point.

## Main definitions

* `Fixed.Writes`: A numeral writes a number with all its places.
* `Fixed.numeral`: The numeral that is laid out.

## Theorems

* `Decimal.head_digits`: Only zero is written with a zero in front.
* `Fixed.chars_numeral`, `Fixed.writes_numeral`: What is laid out is the number written.
* `Fixed.Writes.value_filter`: A text writes no two numbers with the same places.
-/

namespace Worksheet

namespace Decimal

section Layout

variable (run : List Char) (places : ℕ)

/-- Filled up with zeros, a run has a digit in front of its decimals. -/
theorem lt_length_filled : places < (filled run places).length := by
  rw [filled, List.length_append, List.length_replicate]
  omega

/-- The digits in front of the point and those behind it are all of the filled run. -/
theorem whole_append_fraction :
    wholeDigits run places ++ fractionDigits run places = filled run places :=
  List.take_append_drop _ _

/-- Behind the point stand as many digits as there are places. -/
theorem length_fractionDigits : (fractionDigits run places).length = places := by
  have hlength := lt_length_filled run places
  rw [fractionDigits, List.length_drop]
  omega

theorem length_wholeDigits :
    (wholeDigits run places).length = (filled run places).length - places := by
  rw [wholeDigits, List.length_take]
  omega

theorem isEmpty_fractionDigits : (fractionDigits run places).isEmpty = decide (places = 0) := by
  have hlength := length_fractionDigits run places
  rw [Bool.eq_iff_iff, List.isEmpty_iff, ← List.length_eq_zero_iff, hlength, decide_eq_true_iff]

/-- There is a digit in front of the point. -/
theorem wholeDigits_ne_nil : wholeDigits run places ≠ [] := by
  have hlength := lt_length_filled run places
  rw [← List.length_pos_iff, length_wholeDigits]
  omega

/-- Leading zeros do not change a value. -/
theorem value_zeros_append (k : ℕ) : value (List.replicate k '0' ++ run) = value run := by
  induction k with
  | zero => rfl
  | succ k ih =>
      rw [← ih]
      rfl

end Layout

/-- The digits of a number that is not zero start with another digit than zero. -/
theorem head_digits {n : ℕ} (hn : n ≠ 0) : (digits n).head? ≠ some '0' := by
  induction n using Nat.strongRecOn with
  | _ n ih =>
      rw [digits]
      by_cases h : n < 10
      · rw [if_pos h, List.head?_cons, ne_eq, Option.some.injEq]
        intro hzero
        have hvalue := digitValue_digitChar n h
        rw [hzero] at hvalue
        exact hn hvalue.symm
      · rcases List.exists_cons_of_ne_nil (digits_ne_nil (n / 10)) with ⟨c, rest, hdigits⟩
        have hrest := ih (n / 10) (by omega) (by omega)
        rw [hdigits] at hrest
        rw [if_neg h, hdigits]
        exact hrest

/-- Zeros are filled in only as far as the digit before the point. -/
theorem wholeDigits_of_zero {n places : ℕ} (h : (wholeDigits (digits n) places).head? = some '0') :
    wholeDigits (digits n) places = ['0'] := by
  have hlength := length_wholeDigits (digits n) places
  have hone : (wholeDigits (digits n) places).length = 1 := by
    by_cases hfilled : (digits n).length ≤ places
    · rw [hlength, filled, List.length_append, List.length_replicate]
      omega
    · -- Nothing is filled in, so the number itself starts with a zero.
      have hrun : filled (digits n) places = digits n := by
        rw [filled, Nat.sub_eq_zero_of_le (by omega)]
        rfl
      have hhead : (digits n).head? = some '0' := by
        rw [wholeDigits, hrun, List.head?_take, if_neg (by omega)] at h
        exact h
      have hzero : n = 0 := by
        by_contra hn
        exact head_digits hn hhead
      have hdigits : (digits 0).length = 1 := by
        rw [digits, if_pos (by decide)]
        rfl
      rw [hlength, hrun, hzero, hdigits]
      rw [hzero, hdigits] at hfilled
      omega
  rcases List.length_eq_one_iff.1 hone with ⟨c, hc⟩
  rw [hc] at h ⊢
  cases h
  rfl

end Decimal

namespace Fixed

/-- A numeral writes a number with all its places. -/
structure Writes (f : Fixed) (n : Numeral) : Prop where
  /-- A minus sign stands before a negative number that is not zero. -/
  negative : n.negative = true ↔ f.negative = true ∧ f.units ≠ 0
  /-- All others are digits. -/
  isDigit : ∀ c ∈ n.whole ++ n.fraction, c.isDigit = true
  /-- Together they are the units. -/
  value : Decimal.value (n.whole ++ n.fraction) = f.units
  /-- Behind the point there are as many as places. -/
  length : n.fraction.length = f.places
  /-- Before the point there is at least one. -/
  whole_ne_nil : n.whole ≠ []
  /-- It is not a zero if there are more. -/
  leading : n.whole.head? = some '0' → n.whole = ['0']

section Characters

variable {f : Fixed} {c : Char}

theorem isDigit_of_mem_whole (h : c ∈ f.whole) : c.isDigit = true :=
  Decimal.isDigit_of_mem_wholeDigits (Decimal.isDigit_of_mem_digits f.units) h

theorem cases_of_mem_tail (h : c ∈ f.tail) : c = '.' ∨ c.isDigit = true := by
  unfold tail at h
  split at h
  · exact absurd h List.not_mem_nil
  · refine (List.mem_cons.1 h).imp_right fun h => ?_
    exact Decimal.isDigit_of_mem_fractionDigits (Decimal.isDigit_of_mem_digits f.units) h

end Characters

/-- The numeral that is laid out. -/
def numeral (f : Fixed) : Numeral where
  negative := f.showsSign
  whole := f.whole
  fraction := Decimal.fractionDigits (Decimal.digits f.units) f.places

variable (f : Fixed)

/-- The numeral that is laid out has the characters of the fixed text. -/
theorem chars_numeral : f.numeral.chars = f.text := by
  have hempty : f.numeral.fraction.isEmpty = decide (f.places = 0) :=
    Decimal.isEmpty_fractionDigits _ _
  have htail : (if f.numeral.fraction.isEmpty then [] else '.' :: f.numeral.fraction) = f.tail := by
    rw [hempty, tail]
    by_cases hplaces : f.places = 0
    · rw [if_pos (decide_eq_true hplaces), if_pos hplaces]
    · rw [if_neg (by simpa using hplaces), if_neg hplaces]
      rfl
  rw [Numeral.chars, htail]
  rfl

/-- The numeral that is laid out writes the number. -/
theorem writes_numeral : f.Writes f.numeral where
  negative := by simp [numeral, showsSign]
  isDigit := fun _ hc => by
    rw [numeral, whole, Decimal.whole_append_fraction] at hc
    exact Decimal.isDigit_of_mem_filled (Decimal.isDigit_of_mem_digits f.units) hc
  value := by
    rw [numeral, whole, Decimal.whole_append_fraction, Decimal.filled, Decimal.value_zeros_append,
      Decimal.value_digits]
  length := Decimal.length_fractionDigits _ _
  whole_ne_nil := Decimal.wholeDigits_ne_nil _ _
  leading := Decimal.wholeDigits_of_zero

variable {f} {n : Numeral}

/-- A text writes no two numbers with the same places: its digits say which. -/
theorem Writes.value_filter (h : f.Writes n) :
    Decimal.value (n.chars.filter Char.isDigit) = f.units := by
  have hwhole : n.whole.filter Char.isDigit = n.whole :=
    List.filter_eq_self.2 fun c hc => h.isDigit c (List.mem_append_left _ hc)
  have hfraction : n.fraction.filter Char.isDigit = n.fraction :=
    List.filter_eq_self.2 fun c hc => h.isDigit c (List.mem_append_right _ hc)
  have hsign : (if n.negative then ['-'] else []).filter Char.isDigit = [] := by
    split <;> rfl
  -- Only the point is dropped, if there is one.
  have htail : (if n.fraction.isEmpty then [] else '.' :: n.fraction).filter Char.isDigit =
      n.fraction := by
    split
    · rename_i hempty
      rw [List.isEmpty_iff.1 hempty]
      rfl
    · rw [List.filter_cons_of_neg (by decide), hfraction]
  rw [Numeral.chars, List.filter_append, List.filter_append, hsign, hwhole, htail, List.nil_append,
    h.value]

end Fixed

end Worksheet
