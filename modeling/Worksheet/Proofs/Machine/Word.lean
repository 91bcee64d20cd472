import Mathlib.Algebra.Group.Int.Defs
import Mathlib.Algebra.Group.Nat.Defs
import Mathlib.Data.Nat.Notation

/-!
# Arithmetic on words of fixed width

Positions in the grid and offsets in a range are numbers without bounds here, while a machine
computes them in words of 32 and 64 bits. A step on words that would overflow, underflow or lose
bits has no result here. A computation on words that has a result is therefore free of all three,
and if the result is the word of the right number, the bounds make no difference.

Every word is written as the word of a number below the bound, so that each step is a rule about
numbers: it has the expected result as soon as the expected number is below the bound.

## Main definitions

* `Machine.add?`, `Machine.sub?`, `Machine.mul?`: Steps that have no result if it does not fit.
* `Machine.addSigned?`: The same for a sum of words with a sign.
* `Machine.div?`, `Machine.mod?`: Quotient and remainder; there are none by zero.
* `Machine.narrow?`: A word with fewer bits, unless bits are lost.

## Theorems

* `Machine.toNat_of_sub?`: A difference is what it should be, if there is one.
* `Machine.addSigned?_cases`: The same for a sum of words with a sign, and when there is none.
* `Machine.add?_eq`, `Machine.mul?_eq`: When a sum and a product fit.
* `Machine.add?_ofNat`, `Machine.sub?_ofNat`, `Machine.mul?_ofNat`, `Machine.div?_ofNat`,
  `Machine.mod?_ofNat`, `Machine.narrow?_ofNat`: What the steps do to words of numbers.
-/

namespace Worksheet

namespace Machine

section Steps

variable {w : ℕ}

/-- The sum of two words, unless it overflows. -/
def add? (x y : BitVec w) : Option (BitVec w) := if x.uaddOverflow y then none else some (x + y)

/-- The difference of two words, unless it underflows. -/
def sub? (x y : BitVec w) : Option (BitVec w) := if x.usubOverflow y then none else some (x - y)

/-- The product of two words, unless it overflows. -/
def mul? (x y : BitVec w) : Option (BitVec w) := if x.umulOverflow y then none else some (x * y)

/-- The whole quotient of two words, unless the second is zero. -/
def div? (x y : BitVec w) : Option (BitVec w) := if y = 0#w then none else some (x / y)

/-- The remainder of two words, unless the second is zero. -/
def mod? (x y : BitVec w) : Option (BitVec w) := if y = 0#w then none else some (x % y)

/-- The sum of two words with a sign, unless it overflows. -/
def addSigned? (x y : BitVec w) : Option (BitVec w) :=
  if x.saddOverflow y then none else some (x + y)

/-- The word with so many bits, unless one that is dropped is set. -/
def narrow? (v : ℕ) (x : BitVec w) : Option (BitVec v) :=
  if x.toNat < 2 ^ v then some (x.setWidth v) else none

theorem toNat_of_sub? {x y z : BitVec w} (h : sub? x y = some z) :
    z.toNat = x.toNat - y.toNat := by
  unfold sub? at h
  by_cases hfits : x.usubOverflow y = true
  · rw [if_pos hfits] at h
    cases h
  · rw [if_neg hfits] at h
    cases h
    rw [BitVec.usubOverflow, decide_eq_true_iff, Nat.not_lt] at hfits
    exact BitVec.toNat_sub_of_le hfits

/-- A sum with a sign is what it should be, or that is not in the bounds. -/
theorem addSigned?_cases (x y : BitVec w) :
    (∃ z, addSigned? x y = some z ∧ z.toInt = x.toInt + y.toInt) ∨
      addSigned? x y = none ∧
        (x.toInt + y.toInt < -2 ^ (w - 1) ∨ 2 ^ (w - 1) ≤ x.toInt + y.toInt) := by
  rw [addSigned?]
  by_cases h : x.saddOverflow y = true
  · right
    rw [if_pos h]
    simp only [BitVec.saddOverflow, Bool.or_eq_true, decide_eq_true_iff] at h
    exact ⟨rfl, h.symm⟩
  · left
    rw [if_neg h]
    exact ⟨_, rfl, BitVec.toInt_add_of_not_saddOverflow h⟩

end Steps

section Numbers

variable {w m n : ℕ}

theorem toNat_ofNat (h : n < 2 ^ w) : (BitVec.ofNat w n).toNat = n := by
  rw [BitVec.toNat_ofNat, Nat.mod_eq_of_lt h]

/-- Numbers below the bound are told apart by their words. -/
theorem ofNat_inj (hm : m < 2 ^ w) (hn : n < 2 ^ w) :
    BitVec.ofNat w m = BitVec.ofNat w n ↔ m = n := by
  rw [← BitVec.toNat_inj, toNat_ofNat hm, toNat_ofNat hn]

theorem ofNat_ne_zero (h : n < 2 ^ w) (hpos : 0 < n) : ¬ BitVec.ofNat w n = 0#w := by
  rw [ofNat_inj h (Nat.two_pow_pos w)]
  omega

/-- A checked sum is the word of the sum where that is below the bound, and fails elsewhere. -/
theorem add?_eq (hm : m < 2 ^ w) (hn : n < 2 ^ w) : add? (BitVec.ofNat w m) (BitVec.ofNat w n) =
    if m + n < 2 ^ w then some (BitVec.ofNat w (m + n)) else none := by
  rw [add?, BitVec.uaddOverflow, toNat_ofNat hm, toNat_ofNat hn, ← BitVec.ofNat_add]
  by_cases h : m + n < 2 ^ w
  · rw [if_pos h, if_neg (by simpa using h)]
  · rw [if_neg h, if_pos (by simpa using h)]

theorem add?_ofNat (h : m + n < 2 ^ w) :
    add? (BitVec.ofNat w m) (BitVec.ofNat w n) = some (BitVec.ofNat w (m + n)) := by
  rw [add?_eq (by omega) (by omega), if_pos h]

/-- A checked difference is the word of the difference where nothing is taken below zero. -/
theorem sub?_ofNat (hm : m < 2 ^ w) (h : n ≤ m) :
    sub? (BitVec.ofNat w m) (BitVec.ofNat w n) = some (BitVec.ofNat w (m - n)) := by
  have hfits : (BitVec.ofNat w m).usubOverflow (BitVec.ofNat w n) = false := by
    rw [BitVec.usubOverflow, toNat_ofNat hm, toNat_ofNat (by omega)]
    exact decide_eq_false (by omega)
  rw [sub?, hfits, if_neg (by decide), Option.some.injEq]
  refine BitVec.eq_of_toNat_eq ?_
  rw [BitVec.toNat_sub_of_le, toNat_ofNat hm, toNat_ofNat (by omega), toNat_ofNat (by omega)]
  rw [BitVec.le_def, toNat_ofNat hm, toNat_ofNat (by omega)]
  exact h

/-- A checked product is the word of the product where that is below the bound, and fails elsewhere.
    -/
theorem mul?_eq (hm : m < 2 ^ w) (hn : n < 2 ^ w) : mul? (BitVec.ofNat w m) (BitVec.ofNat w n) =
    if m * n < 2 ^ w then some (BitVec.ofNat w (m * n)) else none := by
  rw [mul?, BitVec.umulOverflow, toNat_ofNat hm, toNat_ofNat hn, ← BitVec.ofNat_mul]
  by_cases h : m * n < 2 ^ w
  · rw [if_pos h, if_neg (by simpa using h)]
  · rw [if_neg h, if_pos (by simpa using h)]

theorem mul?_ofNat (hm : m < 2 ^ w) (hn : n < 2 ^ w) (h : m * n < 2 ^ w) :
    mul? (BitVec.ofNat w m) (BitVec.ofNat w n) = some (BitVec.ofNat w (m * n)) := by
  rw [mul?_eq hm hn, if_pos h]

theorem udiv_ofNat (hm : m < 2 ^ w) (hn : n < 2 ^ w) :
    BitVec.ofNat w m / BitVec.ofNat w n = BitVec.ofNat w (m / n) := by
  have hle : m / n ≤ m := Nat.div_le_self m n
  refine BitVec.eq_of_toNat_eq ?_
  rw [BitVec.toNat_udiv, toNat_ofNat hm, toNat_ofNat hn, toNat_ofNat (by omega)]

theorem umod_ofNat (hm : m < 2 ^ w) (hn : n < 2 ^ w) :
    BitVec.ofNat w m % BitVec.ofNat w n = BitVec.ofNat w (m % n) := by
  have hle : m % n ≤ m := Nat.mod_le m n
  refine BitVec.eq_of_toNat_eq ?_
  rw [BitVec.toNat_umod, toNat_ofNat hm, toNat_ofNat hn, toNat_ofNat (by omega)]

/-- A checked quotient is the word of the quotient, by anything but zero. -/
theorem div?_ofNat (hm : m < 2 ^ w) (hn : n < 2 ^ w) (hpos : 0 < n) :
    div? (BitVec.ofNat w m) (BitVec.ofNat w n) = some (BitVec.ofNat w (m / n)) := by
  rw [div?, if_neg (ofNat_ne_zero hn hpos), udiv_ofNat hm hn]

theorem mod?_ofNat (hm : m < 2 ^ w) (hn : n < 2 ^ w) (hpos : 0 < n) :
    mod? (BitVec.ofNat w m) (BitVec.ofNat w n) = some (BitVec.ofNat w (m % n)) := by
  rw [mod?, if_neg (ofNat_ne_zero hn hpos), umod_ofNat hm hn]

/-- A word with more bits is the same number. -/
theorem setWidth_ofNat {v : ℕ} (h : n < 2 ^ w) :
    (BitVec.ofNat w n).setWidth v = BitVec.ofNat v n := by
  refine BitVec.eq_of_toNat_eq ?_
  rw [BitVec.toNat_setWidth, toNat_ofNat h, BitVec.toNat_ofNat]

/-- A number below both bounds keeps its value in a narrower word. -/
theorem narrow?_ofNat {v : ℕ} (hw : n < 2 ^ w) (hv : n < 2 ^ v) :
    narrow? v (BitVec.ofNat w n) = some (BitVec.ofNat v n) := by
  rw [narrow?, toNat_ofNat hw, if_pos hv, setWidth_ofNat hw]

/-- Below half of the bound a word with a sign is the same number. -/
theorem toInt_ofNat (h : 2 * n < 2 ^ w) : (BitVec.ofNat w n).toInt = n := by
  rw [BitVec.toInt_eq_toNat_of_lt] <;> rw [toNat_ofNat (by omega)]
  exact h

/-- Words are compared as the numbers below the bound are. -/
theorem le_ofNat (hm : m < 2 ^ w) (hn : n < 2 ^ w) :
    BitVec.ofNat w m ≤ BitVec.ofNat w n ↔ m ≤ n := by
  rw [BitVec.le_def, toNat_ofNat hm, toNat_ofNat hn]

end Numbers

end Machine

end Worksheet
