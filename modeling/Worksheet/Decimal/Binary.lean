/-!
# Finite doubles as exact numbers

A finite double is a whole number times a power of two, with a sign. `Binary.ofFloat?` reads the
parts off the bits, so everything that is done with them afterwards is exact arithmetic on natural
numbers.

## Main definitions

* `Binary`: A sign, a significand and an exponent of two.
* `Binary.hiddenBit`: The leading bit of a significand.
* `Binary.ofBits?`: The parts of a double from its bits, unless it is infinite or not a number.
* `Binary.ofFloat?`: The same for the double itself.
* `Binary.isPowerBoundary`: Whether the next smaller double is nearer than the next larger one.

## Theorems

* `Binary.significand_lt`: A significand has at most 53 bits.
-/

namespace Worksheet

/-- The number `significand * 2 ^ exponent`, negative or not; zero has both signs. -/
structure Binary where
  /-- Whether the sign bit is set. -/
  negative : Bool
  /-- The whole number that is scaled. -/
  significand : Nat
  /-- The power of two that scales it. -/
  exponent : Int
  deriving DecidableEq, Repr

namespace Binary

/-- The exponent of subnormal doubles, and the smallest one there is. -/
def lowestExponent : Int := -1074

/-- The significand of normal doubles is at least this number, `2 ^ 52`. -/
def hiddenBit : Nat := 0x10000000000000

/-- The parts of the double with the given bits, unless it is infinite or not a number. -/
def ofBits? (bits : Nat) : Option Binary :=
  let negative := bits / 0x8000000000000000 % 2 == 1
  let biased := bits / hiddenBit % 0x800
  let fraction := bits % hiddenBit
  if biased = 0x7FF then none
  else if biased = 0 then some ⟨negative, fraction, lowestExponent⟩
  else some ⟨negative, fraction + hiddenBit, lowestExponent + (biased - 1 : Nat)⟩

/-- The parts of a double, unless it is infinite or not a number. -/
def ofFloat? (x : Float) : Option Binary := ofBits? x.toBits.toNat

/-- Whether the next smaller double is nearer than the next larger one, as it is below a power of
    two that is not subnormal. -/
def isPowerBoundary (b : Binary) : Bool :=
  b.significand == hiddenBit && lowestExponent < b.exponent

theorem significand_lt {bits : Nat} {b : Binary} (h : ofBits? bits = some b) :
    b.significand < 2 * hiddenBit := by
  have hfraction : bits % hiddenBit < hiddenBit := Nat.mod_lt _ (by decide)
  simp only [ofBits?] at h
  split at h
  · cases h
  · split at h
    · cases h
      simp only
      omega
    · cases h
      simp only
      omega

end Binary

end Worksheet
