import Mathlib.Data.List.Induction
import Worksheet.Decimal.Digits

/-!
# Runs of digits and the numbers they denote

Many runs of digits denote one number: they differ in the zeros in front. Without these zeros a run
is the written form of its number, unless nothing is left of it, and then the number is zero.

## Theorems

* `Decimal.value_eq_zero_iff`: Only zeros have the value zero.
* `Decimal.digits_value`: A run of digits without zeros in front is a written form.
-/

namespace Worksheet

namespace Decimal

variable {run : List Char}

theorem digitValue_eq_zero_iff {c : Char} (h : c.isDigit = true) : digitValue c = 0 ↔ c = '0' := by
  have h0 : '0'.toNat = 48 := rfl
  rw [Char.isDigit_iff_toNat] at h
  rw [digitValue, ← Char.toNat_inj]
  omega

theorem digitChar_digitValue {c : Char} (h : c.isDigit = true) :
    digitValue c < 10 ∧ digitChar (digitValue c) = c := by
  have h0 : '0'.toNat = 48 := rfl
  have h9 : '9'.toNat = 57 := rfl
  rw [Char.isDigit_iff_toNat] at h
  refine ⟨?_, ?_⟩
  · rw [digitValue]
    omega
  · rw [digitChar, digitValue, Nat.sub_add_cancel (by omega), Char.ofNat_toNat]

/-- Only zeros have the value zero. -/
theorem value_eq_zero_iff (h : ∀ c ∈ run, c.isDigit = true) :
    value run = 0 ↔ ∀ c ∈ run, c = '0' := by
  -- The last digit counts once and the others ten times, so the induction is from the end.
  induction run using List.reverseRecOn with
  | nil => simp [value]
  | append_singleton run c ih =>
      have hrun := ih fun d hd => h d (List.mem_append_left _ hd)
      rw [value_append_singleton, Nat.add_eq_zero_iff, digitValue_eq_zero_iff (h c (by simp)),
        Nat.mul_eq_zero, hrun, List.forall_mem_append, List.forall_mem_singleton,
        or_iff_left (by decide)]

/-- A run of digits without zeros in front is a written form. -/
theorem digits_value (h : ∀ c ∈ run, c.isDigit = true) (hpos : 0 < value run) :
    digits (value run) = run.dropWhile (· = '0') := by
  induction run using List.reverseRecOn with
  | nil => exact absurd hpos (Nat.lt_irrefl 0)
  | append_singleton run c ih =>
      have hinit : ∀ d ∈ run, d.isDigit = true := fun d hd => h d (List.mem_append_left _ hd)
      have hc := h c (by simp)
      rcases digitChar_digitValue hc with ⟨hlt, hchar⟩
      rw [value_append_singleton] at hpos ⊢
      by_cases hzero : value run = 0
      · -- Up to the last digit there are only zeros.
        have hzeros := (value_eq_zero_iff hinit).1 hzero
        have hne : c ≠ '0' := fun hc0 => by
          have := (digitValue_eq_zero_iff hc).2 hc0
          omega
        rw [hzero, Nat.zero_mul, Nat.zero_add, digits, if_pos hlt, hchar,
          List.dropWhile_append_of_pos fun d hd => decide_eq_true (hzeros d hd),
          List.dropWhile_cons_of_neg (by simpa using hne)]
      · have hrun := ih hinit (Nat.pos_of_ne_zero hzero)
        have hdiv : (value run * 10 + digitValue c) / 10 = value run := by omega
        have hmod : (value run * 10 + digitValue c) % 10 = digitValue c := by omega
        have hne : run.dropWhile (· = '0') ≠ [] := by
          rw [← hrun]
          exact digits_ne_nil _
        rw [digits, if_neg (by omega), hdiv, hmod, hchar, hrun, List.dropWhile_append,
          if_neg (by simpa using hne)]

end Decimal

end Worksheet
