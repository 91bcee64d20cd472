import Mathlib
import Worksheet.Proofs.Decimal.Rounding

/-!
# The opposite of a double

A finite double and its opposite differ in the sign bit only. Arithmetic on doubles takes a word of
bits apart into a sign, a significand and an exponent, and puts the result together again; of a
finite double nothing is lost on the way, whether it is a zero, subnormal or normal. So negation
changes the sign bit, and what a double is shown as can be compared with what its opposite is shown
as.

## Main definitions

* `Binary.opposite`: The same number with the other sign.
* `Binary.unpacked`: A finite double as arithmetic sees it.

## Theorems

* `Binary.ofBits?_packComponents`: The parts of a double from the three fields of its bits.
* `Binary.unpack_of_ofBits?`, `Binary.pack_unpacked`: Nothing is lost on the way.
* `Binary.ofFloat?_neg`: Negation changes the sign and nothing else.
* `Binary.lt_zero_iff`: A negative double has its sign bit set and is no zero.
* `Fixed.ofBinary_opposite`, `Fixed.units_of_zero`: What opposite numbers and zeros are rounded to.
-/

namespace Worksheet

namespace Binary

open Float.Model Float.Model.UnpackedFloat

/-- The opposite number. -/
def opposite (b : Binary) : Binary := { b with negative := !b.negative }

section Fields

variable {s : Sign} {e : BitVec 11} {m : BitVec 52}

-- The other two fields are read back by lemmas of the library.
theorem unpackSign_packComponents :
    unpackSign (packComponents Format.binary64 s e m) = s.toBitVec := by
  change (s.toBitVec ++ e ++ m).extractLsb' 63 1 = s.toBitVec
  rw [BitVec.extractLsb'_append_eq_of_le (by decide),
    BitVec.extractLsb'_append_eq_of_le (by decide)]
  cases s <;> rfl

theorem ofBitVec_toBitVec (s : Sign) : Sign.ofBitVec s.toBitVec = s := by
  cases s <;> rfl

/-- The word that is packed has the sign, the exponent and the fraction in fields of their own. -/
theorem toNat_packComponents : (packComponents Format.binary64 s e m).toNat =
    s.toBitVec.toNat * 0x8000000000000000 + e.toNat * hiddenBit + m.toNat := by
  have he : e.toNat < 2 ^ 11 := e.isLt
  have hm : m.toNat < 2 ^ 52 := m.isLt
  change (s.toBitVec ++ e ++ m).toNat = _
  rw [BitVec.toNat_append, BitVec.toNat_append, ← Nat.shiftLeft_add_eq_or_of_lt he,
    ← Nat.shiftLeft_add_eq_or_of_lt hm]
  simp only [Nat.shiftLeft_eq, hiddenBit]
  omega

/-- Every word of 64 bits is a sign, an exponent and a fraction. -/
theorem exists_fields (w : BitVec 64) :
    ∃ s e m, w = packComponents Format.binary64 s e m := by
  have hw : w.toNat < 2 ^ 64 := w.isLt
  refine ⟨if w.toNat < 0x8000000000000000 then .positive else .negative,
    BitVec.ofNat 11 (w.toNat / hiddenBit), BitVec.ofNat 52 w.toNat, BitVec.eq_of_toNat_eq ?_⟩
  rw [toNat_packComponents]
  by_cases h : w.toNat < 0x8000000000000000
  · rw [if_pos h]
    simp only [Sign.toBitVec, BitVec.toNat_ofNat, hiddenBit]
    omega
  · rw [if_neg h]
    simp only [Sign.toBitVec, BitVec.toNat_ofNat, hiddenBit]
    omega

theorem eq_allOnes_iff : e = -1#_ ↔ e.toNat = 2047 := by
  rw [← BitVec.toNat_inj]
  rfl

/-- The parts of a finite double from its fields. -/
theorem ofBits?_packComponents : ofBits? (packComponents Format.binary64 s e m).toNat =
    if e.toNat = 2047 then none
    else if e.toNat = 0 then some ⟨s.toBitVec.toNat == 1, m.toNat, lowestExponent⟩
    else some ⟨s.toBitVec.toNat == 1, m.toNat + hiddenBit, lowestExponent + (e.toNat - 1 : ℕ)⟩ := by
  have hs : s.toBitVec.toNat < 2 := s.toBitVec.isLt
  have he : e.toNat < 2048 := e.isLt
  have hm : m.toNat < 0x10000000000000 := m.isLt
  -- The three fields do not overlap, so division and remainder find each of them again.
  have hsign : (s.toBitVec.toNat * 0x8000000000000000 + e.toNat * hiddenBit + m.toNat) /
      0x8000000000000000 % 2 = s.toBitVec.toNat := by
    simp only [hiddenBit]
    omega
  have hexponent : (s.toBitVec.toNat * 0x8000000000000000 + e.toNat * hiddenBit + m.toNat) /
      hiddenBit % 0x800 = e.toNat := by
    simp only [hiddenBit]
    omega
  have hfraction : (s.toBitVec.toNat * 0x8000000000000000 + e.toNat * hiddenBit + m.toNat) %
      hiddenBit = m.toNat := by
    simp only [hiddenBit]
    omega
  rw [toNat_packComponents, ofBits?]
  simp only [hsign, hexponent, hfraction]

end Fields

/-- The sign as the logical model of floats has it. -/
def sign (b : Binary) : Sign := if b.negative then .negative else .positive

/-- The double as the logical model of floats has it. -/
def unpacked (b : Binary) : UnpackedFloat :=
  if h : 0 < b.significand then .finite b.sign b.significand b.exponent h else .zero b.sign

/-- The negation of an unpacked number is the unpacked opposite. -/
theorem neg_unpacked (b : Binary) : b.unpacked.neg = b.opposite.unpacked := by
  have hsign : -b.sign = b.opposite.sign := by
    rw [sign, sign, opposite]
    cases b.negative <;> rfl
  unfold unpacked
  by_cases h : 0 < b.significand
  · rw [dif_pos h, dif_pos (show 0 < b.opposite.significand from h), UnpackedFloat.neg, hsign]
    rfl
  · rw [dif_neg h, dif_neg (show ¬ 0 < b.opposite.significand from h), UnpackedFloat.neg, hsign]

/-- Unpacking a word gives the number that is read from its bits. -/
theorem unpack_of_ofBits? {w : BitVec 64} {b : Binary} (h : ofBits? w.toNat = some b) :
    UnpackedFloat.unpack Format.binary64 w = b.unpacked := by
  -- Both readings are of the three fields of the word.
  obtain ⟨s, e, m, rfl⟩ := exists_fields w
  have hsign : ∀ significand exponent,
      sign ⟨s.toBitVec.toNat == 1, significand, exponent⟩ = s := by
    cases s <;> exact fun _ _ => rfl
  have hbias : (Format.binary64.exponentBias : ℤ) = 1023 := rfl
  have hzero : (0#11).toNat = 0 := rfl
  have hfraction : m = 0#_ ↔ m.toNat = 0 := by
    rw [← BitVec.toNat_inj]
    rfl
  have hexponent : e = 0#_ ↔ e.toNat = 0 := by
    rw [← BitVec.toNat_inj]
    rfl
  have hnormal : (1#1 ++ m).toNat = m.toNat + hiddenBit := by
    rw [BitVec.toNat_append, ← Nat.shiftLeft_add_eq_or_of_lt m.isLt, Nat.add_comm]
    rfl
  rw [ofBits?_packComponents] at h
  unfold UnpackedFloat.unpack
  simp only [unpackMantissa_packComponents, unpackExponent_packComponents,
    unpackSign_packComponents, ofBitVec_toBitVec, eq_allOnes_iff, hexponent, hfraction, hnormal]
  by_cases hall : e.toNat = 2047
  · -- All ones in the exponent are an infinity or no number.
    rw [if_pos hall] at h
    cases h
  · rw [if_neg hall] at h ⊢
    by_cases hsub : e.toNat = 0
    · -- No hidden bit: zero, or a number below the normal ones.
      rw [if_pos hsub, Option.some.injEq] at h
      rw [if_pos hsub, ← h, unpacked, hsign]
      by_cases hm : m.toNat = 0
      · rw [dif_pos hm, dif_neg (by simp only; omega)]
      · rw [dif_neg hm, dif_pos (by simp only; omega)]
        congr 1
        rw [hsub, hbias]
        rfl
    · -- With the hidden bit the significand is not zero, and the exponents differ by the bias.
      rw [if_neg hsub, Option.some.injEq] at h
      rw [if_neg hsub, ← h, unpacked, hsign, dif_pos (by simp only [hiddenBit]; omega)]
      congr 1
      change (e.toNat : ℤ) - (1023 + 52) = lowestExponent + (e.toNat - 1 : ℕ)
      rw [lowestExponent]
      omega

/-- A finite double is packed as the word it comes from. -/
theorem pack_unpacked {w : BitVec 64} {b : Binary} (h : ofBits? w.toNat = some b) :
    UnpackedFloat.pack Format.binary64 b.unpacked = w := by
  obtain ⟨s, e, m, rfl⟩ := exists_fields w
  have hm : m.toNat < 2 ^ 52 := m.isLt
  have he : e.toNat < 2 ^ 11 := e.isLt
  have hsign : ∀ significand exponent,
      sign ⟨s.toBitVec.toNat == 1, significand, exponent⟩ = s := by
    cases s <;> exact fun _ _ => rfl
  rw [ofBits?_packComponents] at h
  by_cases hall : e.toNat = 2047
  · rw [if_pos hall] at h
    cases h
  · rw [if_neg hall] at h
    by_cases hsub : e.toNat = 0
    · have hexponent : e = 0#_ := BitVec.eq_of_toNat_eq hsub
      rw [if_pos hsub, Option.some.injEq] at h
      rw [← h, unpacked, hsign]
      by_cases hzero : 0 < m.toNat
      · -- A subnormal number has too few bits to be a normal one.
        have hlog : ¬ m.toNat.log2 + 1 = Format.binary64.mantissaBits := by
          have := (Nat.log2_lt (by omega)).2 hm
          change ¬ m.toNat.log2 + 1 = 53
          omega
        have hroom : ¬ 2 ^ Format.binary64.exponentBits ≤ (lowestExponent +
            Format.binary64.exponentBias +
              Format.binary64.mantissaBitsWithoutImplicit).toNat + 1 := by
          decide
        rw [dif_pos hzero, UnpackedFloat.pack]
        simp only [if_neg hroom, if_neg hlog, hexponent, BitVec.ofNat_toNat, BitVec.setWidth_eq]
      · have hfraction : m = 0#_ := BitVec.eq_of_toNat_eq (by simp; omega)
        rw [dif_neg hzero, UnpackedFloat.pack, packedZero, hexponent, hfraction]
        rfl
    · rw [if_neg hsub, Option.some.injEq] at h
      have hlog : (m.toNat + hiddenBit).log2 + 1 = Format.binary64.mantissaBits := by
        change (m.toNat + hiddenBit).log2 + 1 = 53
        rw [(Nat.log2_eq_iff (k := 52) (by simp only [hiddenBit]; omega)).2]
        simp only [hiddenBit]
        omega
      have hbiased : (lowestExponent + (e.toNat - 1 : ℕ) + Format.binary64.exponentBias +
          Format.binary64.mantissaBitsWithoutImplicit).toNat = e.toNat := by
        change (-1074 + ((e.toNat - 1 : ℕ) : ℤ) + 1023 + 52).toNat = e.toNat
        omega
      have hroom : ¬ 2 ^ Format.binary64.exponentBits ≤ e.toNat + 1 := by
        change ¬ 2048 ≤ e.toNat + 1
        omega
      have hfraction : BitVec.ofNat 52 (m.toNat + hiddenBit) = m := by
        refine BitVec.eq_of_toNat_eq ?_
        rw [BitVec.toNat_ofNat, hiddenBit]
        omega
      rw [← h, unpacked, hsign, dif_pos (by simp only [hiddenBit]; omega), UnpackedFloat.pack]
      simp only [hbiased, if_neg hroom, if_pos hlog, hfraction, BitVec.ofNat_toNat,
        BitVec.setWidth_eq]

/-- The opposite of a finite double has a word as well. -/
theorem exists_opposite {w : BitVec 64} {b : Binary} (h : ofBits? w.toNat = some b) :
    ∃ w' : BitVec 64, ofBits? w'.toNat = some b.opposite := by
  obtain ⟨s, e, m, rfl⟩ := exists_fields w
  have hsign : ((-s).toBitVec.toNat == 1) = !(s.toBitVec.toNat == 1) := by
    cases s <;> rfl
  rw [ofBits?_packComponents] at h
  -- The other sign with the same exponent and fraction.
  refine ⟨packComponents Format.binary64 (-s) e m, ?_⟩
  rw [ofBits?_packComponents, hsign]
  by_cases hall : e.toNat = 2047
  · rw [if_pos hall] at h
    cases h
  · rw [if_neg hall] at h ⊢
    by_cases hsub : e.toNat = 0
    · rw [if_pos hsub, Option.some.injEq] at h ⊢
      rw [← h, opposite]
    · rw [if_neg hsub, Option.some.injEq] at h ⊢
      rw [← h, opposite]

/-- The opposite of a finite double has the same significand and exponent. -/
theorem ofFloat?_neg {x : Float} {b : Binary} (h : ofFloat? x = some b) :
    ofFloat? (-x) = some b.opposite := by
  have hw : ofBits? x.toBits.toBitVec.toNat = some b := h
  rcases exists_opposite hw with ⟨w, hopposite⟩
  have hbits : (-x).toBits = UInt64.ofBitVec w := by
    change UInt64.ofBitVec (UnpackedFloat.pack Format.binary64
      (UnpackedFloat.unpack Format.binary64 x.toBits.toBitVec).neg) = _
    rw [unpack_of_ofBits? hw, neg_unpacked, pack_unpacked hopposite]
  rw [ofFloat?, hbits]
  exact hopposite

/-- A double is negative if its sign bit is set, unless it is a zero. -/
theorem lt_zero_iff {x : Float} {b : Binary} (h : ofFloat? x = some b) :
    x < 0 ↔ b.negative = true ∧ 0 < b.significand := by
  have hw : ofBits? x.toBits.toBitVec.toNat = some b := h
  have hzero : UnpackedFloat.unpack Format.binary64 (0 : Float).toBits.toBitVec =
    .zero .positive := rfl
  have hlt : x < 0 ↔ UnpackedFloat.lt (UnpackedFloat.unpack Format.binary64 x.toBits.toBitVec)
      (UnpackedFloat.unpack Format.binary64 (0 : Float).toBits.toBitVec) = true :=
    decide_eq_true_iff
  rw [hlt, unpack_of_ofBits? hw, hzero, unpacked, sign]
  -- Zero is not below zero, whatever its sign.
  by_cases hpos : 0 < b.significand
  · rw [dif_pos hpos]
    cases b.negative <;> simp [UnpackedFloat.lt, UnpackedFloat.compare, hpos]
  · rw [dif_neg hpos]
    cases b.negative <;> simp [UnpackedFloat.lt, UnpackedFloat.compare, hpos]

end Binary

namespace Fixed

/-- Opposite numbers are rounded alike. -/
theorem ofBinary_opposite (b : Binary) (places : ℕ) :
    ofBinary b.opposite places =
      { ofBinary b places with negative := !(ofBinary b places).negative } := rfl

/-- Zero is shown as zero, with any number of places. -/
theorem units_of_zero {b : Binary} (h : b.significand = 0) (places : ℕ) :
    (ofBinary b places).units = 0 := by
  have hshortest : Decimal.shortest .up b = ⟨0, 0⟩ := by
    rw [Decimal.shortest, if_pos h]
  have hscaled : (⟨0, 0⟩ : Decimal).scaledTo places = 0 := by
    simp [Decimal.scaledTo]
  have hfixed : (⟨0, 0⟩ : Decimal).fixed? places = some 0 := by
    have hlimited : (⟨0, 0⟩ : Decimal).limited = ⟨0, 0⟩ := rfl
    simp only [Decimal.fixed?, hlimited, hscaled]
    rfl
  rw [ofBinary, hshortest, hfixed, Option.getD_some]

end Fixed

end Worksheet
