import Worksheet.Address.Column

/-!
# Letters and digits of ASCII

References, function names and numbers are made of the letters and digits of ASCII. No character is
both a letter and a digit, and turning a letter into a capital one leaves it a letter.

## Theorems

* `not_isAlpha_of_isDigit`, `not_isDigit_of_isAlpha`: Letters are no digits.
* `isAlphanum_of_isAlpha`, `isAlphanum_of_isDigit`: Both are letters or digits.
* `isAlpha_of_isAlpha_toUpper`: Only letters become letters.
* `toUpper_cases`: A capital letter stays, and a small one becomes a capital one.
-/

namespace Worksheet

variable {c : Char}

theorem isAlpha_of_isUpper (h : c.isUpper = true) : c.isAlpha = true := by
  change (c.isUpper || c.isLower) = true
  rw [h, Bool.true_or]

theorem isAlphanum_of_isAlpha (h : c.isAlpha = true) : c.isAlphanum = true := by
  rw [Char.isAlphanum, h, Bool.true_or]

theorem isAlphanum_of_isDigit (h : c.isDigit = true) : c.isAlphanum = true := by
  rw [Char.isAlphanum, h, Bool.or_true]

theorem not_isAlpha_of_isDigit (h : c.isDigit = true) : c.isAlpha = false := by
  have h0 : '0'.toNat = 48 := rfl
  have h9 : '9'.toNat = 57 := rfl
  refine Bool.eq_false_iff.2 fun halpha => ?_
  rw [Char.isDigit_iff_toNat] at h
  rw [Column.isAlpha_iff] at halpha
  omega

theorem not_isDigit_of_isAlpha (h : c.isAlpha = true) : c.isDigit = false := by
  refine Bool.eq_false_iff.2 fun hdigit => ?_
  rw [not_isAlpha_of_isDigit hdigit] at h
  cases h

theorem isAlpha_of_isAlpha_toUpper (h : c.toUpper.isAlpha = true) : c.isAlpha = true := by
  by_cases hlower : 'a'.val ≤ c.val ∧ c.val ≤ 'z'.val
  · rw [UInt32.le_iff_toNat_le, UInt32.le_iff_toNat_le] at hlower
    exact Column.isAlpha_iff.2 (Or.inr hlower)
  · have hsame : c.toUpper = c := dif_neg hlower
    rw [hsame] at h
    exact h

/-- A capital letter stays as it is, and a small one is 32 places away from the capital one. -/
theorem toUpper_cases (h : c.isAlpha = true) :
    (c.isUpper = true ∧ c.toUpper = c) ∨
      (c.isUpper = false ∧ c.toUpper.isUpper = true ∧ c.toNat = c.toUpper.toNat + 32) := by
  rw [Column.isAlpha_iff] at h
  rcases h with hupper | hlower
  · refine Or.inl ⟨Column.isUpper_iff.2 hupper, dif_neg fun hlower => ?_⟩
    have hle : 97 ≤ c.toNat := UInt32.le_iff_toNat_le.1 hlower.1
    omega
  · have hval : 'a'.val ≤ c.val ∧ c.val ≤ 'z'.val :=
      ⟨UInt32.le_iff_toNat_le.2 hlower.1, UInt32.le_iff_toNat_le.2 hlower.2⟩
    have hplace : c.toUpper.toNat = (c.toNat + 4294967264) % 4294967296 := by
      delta Char.toUpper
      rw [dif_pos hval]
      exact UInt32.toNat_add _ _
    have hsmall : ¬ (65 ≤ c.toNat ∧ c.toNat ≤ 90) := by omega
    refine Or.inr ⟨Bool.eq_false_iff.2 fun h => hsmall (Column.isUpper_iff.1 h),
      Column.isUpper_iff.2 ?_, ?_⟩ <;> omega

theorem isAlpha_toUpper (c : Char) : c.toUpper.isAlpha = c.isAlpha := by
  refine Bool.eq_iff_iff.2 ⟨isAlpha_of_isAlpha_toUpper, fun h => ?_⟩
  rcases toUpper_cases h with ⟨_, hsame⟩ | ⟨_, hupper, _⟩
  · rw [hsame]
    exact h
  · exact isAlpha_of_isUpper hupper

theorem toUpper_of_isDigit (h : c.isDigit = true) : c.toUpper = c := by
  have h9 : '9'.toNat = 57 := rfl
  rw [Char.isDigit_iff_toNat] at h
  -- Small letters come after digits.
  refine dif_neg fun hlower => ?_
  have hle : 97 ≤ c.toNat := UInt32.le_iff_toNat_le.1 hlower.1
  omega

end Worksheet
