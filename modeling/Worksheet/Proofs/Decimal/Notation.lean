import Worksheet.Decimal.Reading
import Worksheet.Snapshot.Numeral
import Worksheet.Proofs.Text.Pieces

/-!
# The notation of doubles

A text as a whole may denote a double: perhaps a sign, and then a number or the name of a value that
no number has. A number has digits before a point, digits behind it or both, and may end with a
power of ten. Texts that are anything else denote none.

A decimal as it stands in a cell is such a text, with a minus sign or none and without a power. So
what it denotes is not in question: the double that it is read as.

## Main definitions

* `Decimal.double?`: The double that a text denotes, if it denotes one.
* `Numeral.IsProper`: A decimal with digits only, at least one.

## Theorems

* `Decimal.number?_digits`: What digits around a point denote.
* `Numeral.double?_chars`: A proper decimal denotes the double that it is read as.
-/

namespace Worksheet

open Text

namespace Decimal

/-- The number that digits denote; there has to be one. -/
def natural? (ds : List Char) : Option Nat :=
  if !ds.isEmpty && ds.all Char.isDigit then some (value ds) else none

/-- The power of ten at the end of a number; there may be none. -/
def power? : List Char → Option Int
  | [] => some 0
  | c :: '-' :: ds => if c.toLower = 'e' then (natural? ds).map fun n => -(n : Int) else none
  | c :: '+' :: ds => if c.toLower = 'e' then (natural? ds).map fun n => (n : Int) else none
  | c :: ds => if c.toLower = 'e' then (natural? ds).map fun n => (n : Int) else none

/-- The double nearest to so many units of a power of ten. -/
def scaled (units : Nat) (power : Int) : Float :=
  Float.ofScientific units (decide (power ≤ 0)) power.natAbs

/-- The digits behind a point, and what follows them. -/
def behindPoint : List Char → List Char × List Char
  | '.' :: rest => (rest.takeWhile Char.isDigit, rest.dropWhile Char.isDigit)
  | rest => ([], rest)

/-- The double that a number without a sign denotes. -/
def number? (text : List Char) : Option Float :=
  let whole := text.takeWhile Char.isDigit
  let (fraction, rest) := behindPoint (text.dropWhile Char.isDigit)
  if whole.isEmpty && fraction.isEmpty then none
  else (power? rest).map fun power => scaled (value (whole ++ fraction)) (power - fraction.length)

/-- The double that a name stands for, whatever the case of its letters. -/
def named? (text : List Char) : Option Float :=
  let name := String.ofList (text.map Char.toLower)
  if name = "inf" ∨ name = "infinity" then some (1.0 / 0.0)
  else if name = "nan" then some (0.0 / 0.0)
  else none

/-- The double that a text without a sign denotes. -/
def magnitude? (text : List Char) : Option Float := (number? text).or (named? text)

/-- The double that a text denotes, if it denotes one. -/
def double? : List Char → Option Float
  | '-' :: text => (magnitude? text).map fun x => -x
  | '+' :: text => magnitude? text
  | text => magnitude? text

end Decimal

namespace Numeral

/-- The point and the digits behind it, if there are any. -/
def tail (fraction : List Char) : List Char := if fraction.isEmpty then [] else '.' :: fraction

/-- A decimal is made of digits, and there is at least one. -/
structure IsProper (n : Numeral) : Prop where
  /-- What stands before the point are digits. -/
  whole : ∀ c ∈ n.whole, c.isDigit = true
  /-- So is what stands behind it. -/
  fraction : ∀ c ∈ n.fraction, c.isDigit = true
  /-- One of them is not empty. -/
  ne_nil : n.whole ≠ [] ∨ n.fraction ≠ []

variable {whole fraction : List Char}

theorem not_isEmpty_iff :
    ¬ (whole.isEmpty && fraction.isEmpty) = true ↔ whole ≠ [] ∨ fraction ≠ [] := by
  rw [Bool.and_eq_true, List.isEmpty_iff, List.isEmpty_iff, not_and_or]

theorem tail_of_ne_nil (h : fraction ≠ []) : tail fraction = '.' :: fraction := by
  rw [tail, if_neg]
  rw [List.isEmpty_iff]
  exact h

theorem endsRun_tail (fraction : List Char) : EndsRun Char.isDigit (tail fraction) := by
  unfold tail
  split
  · exact endsRun_nil
  · exact endsRun_cons (by decide)

-- A number without a sign starts with a digit or with a point.
theorem head_digits {c : Char} {rest : List Char} (hwhole : ∀ c ∈ whole, c.isDigit = true)
    (h : whole ++ tail fraction = c :: rest) : c.isDigit = true ∨ c = '.' := by
  cases whole with
  | cons d more =>
      rw [List.cons_append, List.cons.injEq] at h
      exact Or.inl (h.1 ▸ hwhole d List.mem_cons_self)
  | nil =>
      rw [List.nil_append, tail] at h
      split at h
      · cases h
      · exact Or.inr (List.cons.inj h).1.symm

/-- Digits around a point start with a digit or the point. -/
theorem digits_ne_cons {c : Char} (hwhole : ∀ c ∈ whole, c.isDigit = true)
    (hdigit : c.isDigit = false) (hpoint : c ≠ '.') (rest : List Char) :
    whole ++ tail fraction ≠ c :: rest := by
  intro h
  rcases head_digits hwhole h with hc | hc
  · rw [hdigit] at hc
    cases hc
  · exact hpoint hc

/-- A numeral is its sign, the whole part, and the fraction behind its point. -/
theorem chars_eq (negative : Bool) (whole fraction : List Char) :
    chars ⟨negative, whole, fraction⟩ =
      if negative then '-' :: (whole ++ tail fraction) else whole ++ tail fraction := by
  cases negative <;> rfl

end Numeral

namespace Decimal

variable {whole fraction : List Char}

/-- Digits around a point denote the double that they are read as. -/
theorem number?_digits (hwhole : ∀ c ∈ whole, c.isDigit = true)
    (hfraction : ∀ c ∈ fraction, c.isDigit = true) (hne : whole ≠ [] ∨ fraction ≠ []) :
    number? (whole ++ Numeral.tail fraction) = some (toFloat whole fraction) := by
  have hends := Numeral.endsRun_tail fraction
  have hbehind : behindPoint (Numeral.tail fraction) = (fraction, []) := by
    unfold Numeral.tail
    split
    · rename_i hempty
      rw [List.isEmpty_iff.1 hempty]
      rfl
    · rw [behindPoint, List.takeWhile_eq_self_iff.2 hfraction,
        List.dropWhile_eq_nil_iff.2 hfraction]
  -- No power is written, so the digits behind the point alone scale the number.
  have hscaled : scaled (value (whole ++ fraction)) (0 - (fraction.length : Int)) =
      toFloat whole fraction := by
    have hle : (0 - (fraction.length : Int)) ≤ 0 := by omega
    have habs : (0 - (fraction.length : Int)).natAbs = fraction.length := by omega
    rw [scaled, decide_eq_true hle, habs, toFloat]
  simp only [number?, takeWhile_run hwhole hends, dropWhile_run hwhole hends, hbehind,
    if_neg (Numeral.not_isEmpty_iff.2 hne), power?, Option.map_some, hscaled]

end Decimal

namespace Numeral

/-- A proper decimal denotes the double that it is read as. -/
theorem double?_chars {n : Numeral} (h : n.IsProper) :
    Decimal.double? n.chars = some n.toFloat := by
  rcases n with ⟨negative, whole, fraction⟩
  have hnumber := Decimal.number?_digits h.whole h.fraction h.ne_nil
  dsimp only at hnumber
  have hmagnitude : Decimal.magnitude? (whole ++ tail fraction) =
      some (Decimal.toFloat whole fraction) := by
    rw [Decimal.magnitude?, hnumber, Option.some_or]
  rw [chars_eq]
  cases negative with
  | true =>
      rw [if_pos rfl, Decimal.double?, hmagnitude]
      rfl
  | false =>
      -- Without a sign in front, the reading goes to the magnitude at once.
      rw [if_neg (by decide), Decimal.double?.eq_3, hmagnitude]
      · rfl
      · exact digits_ne_cons h.whole (by decide) (by decide)
      · exact digits_ne_cons h.whole (by decide) (by decide)

end Numeral

end Worksheet
