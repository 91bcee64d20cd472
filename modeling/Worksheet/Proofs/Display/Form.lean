import Worksheet.Proofs.Decimal.Digits
import Worksheet.Proofs.Decimal.Opposite
import Worksheet.Proofs.Decimal.Written

/-!
# The form of displayed numbers

Every finite number is shown in one form, whichever way its digits are found: a minus sign if the
number is negative and does not look like zero, then the currency, then groups of three digits with
commas between them, of which the first may be shorter, and behind a point exactly as many digits as
there are places.

Commas are placed by counting from the last digit, while the form names the groups from the first,
so the groups of a run of digits are found from those of the run without its first digit: a full
first group starts another one.

The sign that is written is no property of the digits but of the number, so a number and its
opposite are shown with the same digits, and with different signs unless all digits are zeros.

## Main definitions

* `GroupedNumeral`: A sign, groups of digits and the digits behind the point.
* `GroupedNumeral.chars`: The written form behind a currency.
* `GroupedNumeral.HasForm`: What groups of digits have to satisfy.
* `GroupedNumeral.opposite`: The other sign, unless all digits are zeros.

## Theorems

* `exists_groups`: Commas between groups of three, counted from the last digit.
* `DisplayStyle.render_hasForm`: Every number that is shown has the form.
-/

namespace Worksheet

/-- A number in groups of digits. -/
structure GroupedNumeral where
  /-- Whether a minus sign stands in front. -/
  negative : Bool
  /-- The first group of digits before the point. -/
  first : List Char
  /-- The other groups before the point. -/
  groups : List (List Char)
  /-- The digits behind the point; none if there is no point. -/
  fraction : List Char

namespace GroupedNumeral

/-- The number without commas. -/
def numeral (n : GroupedNumeral) : Numeral := ⟨n.negative, n.first ++ n.groups.flatten, n.fraction⟩

/-- All digits that are shown. -/
def digits (n : GroupedNumeral) : List Char := n.first ++ n.groups.flatten ++ n.fraction

/-- The written form: the sign, the currency, the groups with a comma before each but the first, and
    the digits behind the point. -/
def chars (n : GroupedNumeral) (currency : List Char) : List Char :=
  (if n.negative then ['-'] else []) ++ currency ++ (n.first ++ n.groups.flatMap (',' :: ·))
    ++ if n.fraction.isEmpty then [] else '.' :: n.fraction

/-- All digits are zeros. -/
def IsZero (n : GroupedNumeral) : Prop := ∀ c ∈ n.digits, c = '0'

instance (n : GroupedNumeral) : Decidable n.IsZero :=
  inferInstanceAs (Decidable (∀ c ∈ n.digits, c = '0'))

/-- The number with the other sign; a zero has none. -/
def opposite (n : GroupedNumeral) : GroupedNumeral :=
  if n.IsZero then n else { n with negative := !n.negative }

/-- A number with so many places, in proper groups and without needless zeros. -/
structure HasForm (n : GroupedNumeral) (places : ℕ) : Prop where
  /-- All that is shown of it are digits. -/
  isDigit : ∀ c ∈ n.digits, c.isDigit = true
  /-- The first group is not empty. -/
  first_ne_nil : n.first ≠ []
  /-- It has at most three digits. -/
  first_length : n.first.length ≤ 3
  /-- The other groups have three. -/
  groups_length : ∀ g ∈ n.groups, g.length = 3
  /-- A zero in front is the only digit before the point. -/
  leading : n.first.head? = some '0' → n.first = ['0'] ∧ n.groups = []
  /-- Behind the point there are as many digits as places. -/
  fraction_length : n.fraction.length = places

end GroupedNumeral

/-! ## Groups -/

/-- Commas between groups of three, counted from the last digit. -/
theorem exists_groups {ds : List Char} (hne : ds ≠ []) :
    ∃ (first : List Char) (groups : List (List Char)), ds = first ++ groups.flatten ∧
      grouped ds = first ++ groups.flatMap (',' :: ·) ∧ first ≠ [] ∧ first.length ≤ 3 ∧
      ∀ g ∈ groups, g.length = 3 := by
  induction ds with
  | nil => exact absurd rfl hne
  | cons d rest ih =>
      by_cases hrest : rest = []
      · refine ⟨[d], [], by simp [hrest], ?_, by simp, by simp, by simp⟩
        simp [hrest, grouped]
      · rcases ih hrest with ⟨first, groups, hflat, hgrouped, hfirst, hlength, hgroups⟩
        have htotal : rest.length = first.length + 3 * groups.length := by
          rw [hflat, List.length_append, List.length_flatten, List.map_congr_left hgroups,
            List.map_const', List.sum_replicate_nat, Nat.mul_comm]
        have hpos : 0 < first.length := List.length_pos_iff.2 hfirst
        by_cases hfull : first.length = 3
        · -- The first group of the rest is full, so the digit starts another one.
          refine ⟨[d], first :: groups, ?_, ?_, by simp, by simp, ?_⟩
          · rw [hflat]
            rfl
          · rw [grouped, if_pos ⟨by omega, hrest⟩, hgrouped]
            rfl
          · intro g hg
            rcases List.mem_cons.1 hg with rfl | hg
            · exact hfull
            · exact hgroups g hg
        · refine ⟨d :: first, groups, ?_, ?_, by simp, ?_, hgroups⟩
          · rw [hflat]
            rfl
          · rw [grouped, if_neg (by omega), hgrouped]
            rfl
          · rw [List.length_cons]
            omega

/-! ## Layouts -/

namespace Fixed

/-- The groups of digits that a number is shown as. -/
structure ShownAs (f : Fixed) (n : GroupedNumeral) : Prop where
  /-- The minus sign is the one that is written. -/
  negative : n.negative = f.showsSign
  /-- The groups are the digits before the point. -/
  whole : f.whole = n.first ++ n.groups.flatten
  /-- The commas stand between the groups. -/
  grouped : grouped f.whole = n.first ++ n.groups.flatMap (',' :: ·)
  /-- The other digits are those behind the point. -/
  fraction : n.fraction = Decimal.fractionDigits (Decimal.digits f.units) f.places

namespace ShownAs

variable {f : Fixed} {n : GroupedNumeral}

theorem numeral_eq (h : f.ShownAs n) : n.numeral = f.numeral := by
  rw [GroupedNumeral.numeral, Fixed.numeral, h.negative, ← h.whole, h.fraction]

theorem digits_eq (h : f.ShownAs n) : n.digits = f.numeral.whole ++ f.numeral.fraction := by
  rw [← h.numeral_eq]
  rfl

/-- A shown number is its sign, the currency, the grouped digits, and what is behind them. -/
theorem chars_eq (h : f.ShownAs n) (currency : List Char) :
    n.chars currency = f.sign ++ currency ++ Worksheet.grouped f.whole ++ f.tail := by
  have htail : (if n.fraction.isEmpty then [] else '.' :: n.fraction) = f.tail := by
    rw [h.fraction, Decimal.isEmpty_fractionDigits, tail]
    simp only [decide_eq_true_eq]
  rw [GroupedNumeral.chars, htail, ← h.grouped, h.negative, sign]

/-- What is shown as zero has no units. -/
theorem isZero_iff (h : f.ShownAs n) : n.IsZero ↔ f.units = 0 := by
  have hwrites := f.writes_numeral
  rw [GroupedNumeral.IsZero, h.digits_eq, ← Decimal.value_eq_zero_iff hwrites.isDigit,
    hwrites.value]

/-- The opposite number is shown with the same digits. -/
theorem opposite (h : f.ShownAs n) :
    ({ f with negative := !f.negative } : Fixed).ShownAs n.opposite := by
  unfold GroupedNumeral.opposite
  by_cases hzero : n.IsZero
  · rw [if_pos hzero]
    refine ⟨?_, h.whole, h.grouped, h.fraction⟩
    have hunits := h.isZero_iff.1 hzero
    simp [h.negative, showsSign, hunits]
  · rw [if_neg hzero]
    refine ⟨?_, h.whole, h.grouped, h.fraction⟩
    have hunits : (f.units != 0) = true := bne_iff_ne.2 (mt h.isZero_iff.2 hzero)
    simp only [h.negative, showsSign, hunits, Bool.and_true]

end ShownAs

/-- Every number with a fixed number of places is shown in one form. -/
theorem exists_shownAs (f : Fixed) : ∃ n, f.ShownAs n ∧ n.HasForm f.places := by
  have hwrites := f.writes_numeral
  rcases exists_groups hwrites.whole_ne_nil with ⟨first, groups, hflat, hgrouped, hne, hle, hthree⟩
  let n : GroupedNumeral :=
    ⟨f.showsSign, first, groups, Decimal.fractionDigits (Decimal.digits f.units) f.places⟩
  have hshown : f.ShownAs n := ⟨rfl, hflat, hgrouped, rfl⟩
  refine ⟨n, hshown, ?_, hne, hle, hthree, fun hhead => ?_, hwrites.length⟩
  · rw [hshown.digits_eq]
    exact hwrites.isDigit
  · -- The first group starts as all digits before the point do, and then it is all of them.
    have hwhole : f.numeral.whole = ['0'] := by
      refine hwrites.leading ?_
      rw [hflat, List.head?_append_of_ne_nil _ hne]
      exact hhead
    rw [hflat] at hwhole
    rcases List.append_eq_singleton_iff.1 hwhole with ⟨hnil, _⟩ | ⟨hfirst, hrest⟩
    · exact absurd hnil hne
    · refine ⟨hfirst, List.eq_nil_iff_forall_not_mem.2 fun g hg => ?_⟩
      have hempty := List.flatten_eq_nil_iff.1 hrest g hg
      have hlength := hthree g hg
      rw [hempty] at hlength
      cases hlength

end Fixed

namespace DisplayStyle

variable {v : Float} {b : Binary}

/-- A finite value is rendered as its sign, what the style puts in front, the grouped digits, and
    the decimals. -/
theorem toList_render (style : DisplayStyle) (hv : Binary.ofFloat? v = some b) :
    let f := Fixed.ofBinary b style.places
    (style.render (.ok (some v))).toList =
      f.sign ++ style.lead.toList ++ grouped f.whole ++ f.tail := by
  rw [render, renderNumber, hv]
  exact String.toList_ofList

/-- Every finite number is shown in one form: a minus sign exactly for a negative number with a
    digit that is no zero, the currency, groups of digits, and all places. Without currency and
    commas it is the number that is laid out, and the opposite number is shown with the other sign,
    if there is one. -/
theorem render_hasForm (currency : Option String) (decimals : Option ℕ)
    (hv : Binary.ofFloat? v = some b) :
    let style : DisplayStyle := { currency := currency, decimals := decimals.getD 2 }
    let places := min (decimals.getD 2) 28
    ∃ n : GroupedNumeral, n.HasForm places ∧
      (style.render (.ok (some v))).toList = n.chars style.lead.toList ∧
      (n.negative = true ↔ v < 0 ∧ ¬ n.IsZero) ∧
      n.numeral.chars = (Fixed.ofBinary b places).text ∧
      (style.render (.ok (some (-v)))).toList = n.opposite.chars style.lead.toList := by
  intro style places
  rcases (Fixed.ofBinary b places).exists_shownAs with ⟨n, hshown, hform⟩
  refine ⟨n, hform, ?_, ?_, ?_, ?_⟩
  · rw [hshown.chars_eq]
    exact style.toList_render hv
  · -- A zero is shown as zeros, so the sign bit decides.
    have hzero : ¬ n.IsZero → 0 < b.significand := fun hn =>
      Nat.pos_of_ne_zero fun h => hn (hshown.isZero_iff.2 (Fixed.units_of_zero h places))
    have hsign : (Fixed.ofBinary b places).negative = b.negative := rfl
    have hnegative : n.negative = true ↔ b.negative = true ∧ ¬ n.IsZero := by
      rw [hshown.negative, hshown.isZero_iff, Fixed.showsSign, hsign]
      simp
    rw [hnegative, Binary.lt_zero_iff hv]
    tauto
  · rw [hshown.numeral_eq, Fixed.chars_numeral]
  · have hopposite := hshown.opposite
    rw [← Fixed.ofBinary_opposite] at hopposite
    rw [hopposite.chars_eq]
    exact style.toList_render (Binary.ofFloat?_neg hv)

-- A known code with blanks around it, and the places that are shown unless others are asked for.
theorem render_hasForm_of_code :
    let style : DisplayStyle := { currency := some " eur", decimals := 2 }
    let b : Binary := ⟨true, 0x13488a3d70a3d7, -42⟩
    Binary.ofFloat? (-1234.135) = some b ∧ style.render (.ok (some (-1234.135))) = "-€1,234.14" ∧
      ∃ n : GroupedNumeral, n.HasForm 2 ∧ n.chars ['€'] = "-€1,234.14".toList ∧
        (n.negative = true ↔ (-1234.135 : Float) < 0 ∧ ¬ n.IsZero) ∧
        n.numeral.chars = "-1234.14".toList ∧
        (style.render (.ok (some (-(-1234.135))))).toList = n.opposite.chars ['€'] := by
  intro style b
  have hv : Binary.ofFloat? (-1234.135) = some b := by decide
  -- The code stands for its sign, in capitals or not and with blanks around it.
  have hlead : style.lead.toList = ['€'] := by decide +kernel
  have hshown : style.render (.ok (some (-1234.135))) = "-€1,234.14" := by decide +kernel
  have htext : (Fixed.ofBinary b 2).text = "-1234.14".toList := by decide +kernel
  rcases render_hasForm (some " eur") none hv with ⟨n, hform, hchars, hsign, hplain, hopposite⟩
  refine ⟨hv, hshown, n, hform, ?_, hsign, hplain.trans htext, ?_⟩
  · rw [← hlead, ← hshown]
    exact hchars.symm
  · rw [← hlead]
    exact hopposite

end DisplayStyle

end Worksheet
