import Worksheet.Proofs.Decimal.Notation

/-!
# The longest decimal

What is read from the text of a cell is the longest beginning that is a decimal, once the characters
that no decimal has are dropped. A decimal is perhaps a minus sign, then digits, then perhaps a
point with digits behind it; the digits in front of the point may be missing if there are some
behind it, and a point without digits behind it is no part of the decimal.

A reader that goes from left to right and never turns back finds it: digits run on as far as they
go, and a point is taken exactly if a digit follows. Any beginning that is a decimal ends within
what is taken in this way.

## Main definitions

* `Numeral.IsDecimal`: The form of a decimal.
* `IsLongestPrefix`: The longest beginning of a kind.

## Theorems

* `Numeral.isDecimal_iff`: Decimals are what proper numerals are written as.
* `Numeral.leading?_chars`: A decimal is read as itself.
* `Numeral.prefix_layout_of_isUnsigned`: No decimal at the start is longer than what is taken.
* `Numeral.isLongestPrefix_of_leading?`, `Numeral.not_isDecimal_of_leading?`: What the reader finds.
* `readNumber_reads_longest`: The number in a text is what its longest decimal denotes.
-/

namespace Worksheet

open Text

/-- The longest beginning of a text that is of a kind. -/
structure IsLongestPrefix (P : List Char → Prop) (p text : List Char) : Prop where
  /-- The text starts with it. -/
  isPrefix : p <+: text
  /-- It is of the kind. -/
  holds : P p
  /-- Other beginnings of the kind are no longer. -/
  longest : ∀ q, q <+: text → P q → q.length ≤ p.length

/-- There is at most one longest prefix. -/
theorem IsLongestPrefix.unique {P : List Char → Prop} {p q text : List Char}
    (hp : IsLongestPrefix P p text) (hq : IsLongestPrefix P q text) : p = q := by
  have hle := hp.longest q hq.isPrefix hq.holds
  have hge := hq.longest p hp.isPrefix hp.holds
  exact (List.prefix_of_prefix_length_le hp.isPrefix hq.isPrefix hge).eq_of_length_le hle

namespace Numeral

/-- Digits, at least one. -/
structure IsDigits (ds : List Char) : Prop where
  /-- There is a digit. -/
  ne_nil : ds ≠ []
  /-- There is nothing else. -/
  isDigit : ∀ c ∈ ds, c.isDigit = true

/-- The form of a decimal without a sign. -/
inductive IsUnsigned : List Char → Prop where
  | whole {ds : List Char} (hds : IsDigits ds) : IsUnsigned ds
  | both {ds fs : List Char} (hds : IsDigits ds) (hfs : IsDigits fs) : IsUnsigned (ds ++ '.' :: fs)
  | fraction {fs : List Char} (hfs : IsDigits fs) : IsUnsigned ('.' :: fs)

/-- The form of a decimal. -/
inductive IsDecimal : List Char → Prop where
  | plain {text : List Char} (h : IsUnsigned text) : IsDecimal text
  | negative {text : List Char} (h : IsUnsigned text) : IsDecimal ('-' :: text)

variable {w p q cs whole fraction : List Char} {n : Numeral}

/-- Digits around a point are a numeral, if there are any. -/
theorem isUnsigned_layout (hwhole : ∀ c ∈ whole, c.isDigit = true)
    (hfraction : ∀ c ∈ fraction, c.isDigit = true) (hne : whole ≠ [] ∨ fraction ≠ []) :
    IsUnsigned (whole ++ tail fraction) := by
  by_cases hempty : fraction = []
  · rw [hempty, tail, if_pos List.isEmpty_nil, List.append_nil]
    exact .whole ⟨hne.resolve_right fun h => h hempty, hwhole⟩
  · have hfs : IsDigits fraction := ⟨hempty, hfraction⟩
    rw [tail_of_ne_nil hempty]
    cases whole with
    | nil => exact .fraction hfs
    | cons d more => exact .both ⟨List.cons_ne_nil _ _, hwhole⟩ hfs

/-- A decimal without a sign is written around a point, or without one. -/
theorem exists_layout (h : IsUnsigned q) : ∃ whole fraction, q = whole ++ tail fraction ∧
    (∀ c ∈ whole, c.isDigit = true) ∧ (∀ c ∈ fraction, c.isDigit = true) ∧
      (whole ≠ [] ∨ fraction ≠ []) := by
  cases h with
  | whole hds =>
      exact ⟨q, [], (List.append_nil q).symm, hds.isDigit, List.forall_mem_nil _, Or.inl hds.ne_nil⟩
  | @both ds fs hds hfs =>
      refine ⟨ds, fs, ?_, hds.isDigit, hfs.isDigit, Or.inl hds.ne_nil⟩
      rw [tail_of_ne_nil hfs.ne_nil]
  | @fraction fs hfs =>
      refine ⟨[], fs, ?_, List.forall_mem_nil _, hfs.isDigit, Or.inr hfs.ne_nil⟩
      rw [tail_of_ne_nil hfs.ne_nil, List.nil_append]

theorem IsUnsigned.ne_nil (h : IsUnsigned q) : q ≠ [] := by
  cases h with
  | whole hds => exact hds.ne_nil
  | both hds hfs => exact List.append_ne_nil_of_right_ne_nil _ (List.cons_ne_nil _ _)
  | fraction hfs => exact List.cons_ne_nil _ _

theorem IsUnsigned.head {c : Char} {rest : List Char} (h : IsUnsigned (c :: rest)) :
    c.isDigit = true ∨ c = '.' := by
  rcases exists_layout h with ⟨whole, fraction, hq, hwhole, -, -⟩
  exact head_digits hwhole hq.symm

/-- Decimals are what proper numerals are written as. -/
theorem isDecimal_iff : IsDecimal q ↔ ∃ n : Numeral, n.IsProper ∧ n.chars = q := by
  constructor
  · intro h
    cases h with
    | plain h =>
        rcases exists_layout h with ⟨whole, fraction, rfl, hwhole, hfraction, hne⟩
        exact ⟨⟨false, whole, fraction⟩, ⟨hwhole, hfraction, hne⟩, rfl⟩
    | negative h =>
        rcases exists_layout h with ⟨whole, fraction, rfl, hwhole, hfraction, hne⟩
        exact ⟨⟨true, whole, fraction⟩, ⟨hwhole, hfraction, hne⟩, rfl⟩
  · rintro ⟨⟨negative, whole, fraction⟩, h, rfl⟩
    have hunsigned := isUnsigned_layout h.whole h.fraction h.ne_nil
    cases negative with
    | true => exact .negative hunsigned
    | false => exact .plain hunsigned

/-! ## What the reader takes -/

/-- What the reader takes of a text without a sign. -/
def layout (cs : List Char) : List Char :=
  cs.takeWhile Char.isDigit ++ tail (fractionOf (cs.dropWhile Char.isDigit))

theorem isDigit_of_mem_fractionOf : ∀ c ∈ fractionOf cs, c.isDigit = true := by
  intro c hc
  unfold fractionOf at hc
  split at hc
  · exact List.mem_takeWhile_imp hc
  · exact absurd hc List.not_mem_nil

/-- What is read from the front of a text is a prefix of it. -/
theorem layout_isPrefix (cs : List Char) : layout cs <+: cs := by
  have htail : ∀ rest : List Char, tail (fractionOf rest) <+: rest := by
    intro rest
    unfold fractionOf tail
    split
    · split
      · exact List.nil_prefix
      · exact (List.prefix_cons_inj _).2 (List.takeWhile_prefix _)
    · exact List.nil_prefix
  conv_rhs => rw [← List.takeWhile_append_dropWhile (p := Char.isDigit) (l := cs)]
  exact (List.prefix_append_right_inj _).2 (htail _)

/-- What is laid out around a point is taken as a whole. -/
theorem unsigned?_run (negative : Bool) (hwhole : ∀ c ∈ whole, c.isDigit = true)
    (hfraction : ∀ c ∈ fraction, c.isDigit = true) (hne : whole ≠ [] ∨ fraction ≠ []) :
    unsigned? negative (whole ++ tail fraction) = some ⟨negative, whole, fraction⟩ := by
  have hends := endsRun_tail fraction
  have hbehind : fractionOf (tail fraction) = fraction := by
    unfold tail
    split
    · rename_i hempty
      rw [List.isEmpty_iff.1 hempty]
      rfl
    · exact List.takeWhile_eq_self_iff.2 hfraction
  simp only [unsigned?, takeWhile_run hwhole hends, dropWhile_run hwhole hends, hbehind,
    if_neg (not_isEmpty_iff.2 hne)]

/-- A decimal is read as itself. -/
theorem leading?_chars (h : n.IsProper) : leading? n.chars = some n := by
  rcases n with ⟨negative, whole, fraction⟩
  have hrun := unsigned?_run negative h.whole h.fraction h.ne_nil
  dsimp only at hrun
  rw [chars_eq]
  cases negative with
  | true => exact hrun
  | false =>
      rw [if_neg (by decide), leading?.eq_2, hrun]
      exact digits_ne_cons h.whole (by decide) (by decide)

/-- A decimal at the start of a text lies within what the reader takes. -/
theorem prefix_layout_of_isUnsigned (hq : IsUnsigned q) (h : q <+: cs) : q <+: layout cs := by
  rcases exists_layout hq with ⟨whole, fraction, rfl, hwhole, hfraction, hne⟩
  rcases h with ⟨more, rfl⟩
  by_cases hempty : fraction = []
  · -- Digits alone are a beginning of the run of digits.
    subst hempty
    have hrun : (whole ++ more).takeWhile Char.isDigit = whole ++ more.takeWhile Char.isDigit :=
      List.takeWhile_append_of_pos hwhole
    simp only [tail, List.isEmpty_nil, if_true, List.append_nil, layout, hrun, List.append_assoc]
    exact List.prefix_append _ _
  · -- The point ends the run of digits, and the digits behind it are a beginning of the next one.
    have hends : EndsRun Char.isDigit ('.' :: (fraction ++ more)) := endsRun_cons (by decide)
    have hfront : fraction <+: fractionOf ('.' :: (fraction ++ more)) := by
      rw [fractionOf, List.takeWhile_append_of_pos hfraction]
      exact List.prefix_append _ _
    have htaken : fractionOf ('.' :: (fraction ++ more)) ≠ [] := fun hnone =>
      hempty (List.prefix_nil.1 (hnone ▸ hfront))
    rw [tail_of_ne_nil hempty, List.append_assoc, List.cons_append, layout,
      takeWhile_run hwhole hends, dropWhile_run hwhole hends, tail_of_ne_nil htaken]
    exact (List.prefix_append_right_inj _).2 ((List.prefix_cons_inj _).2 hfront)

/-- What is taken of a text without a sign is a proper decimal, written as it stands there. -/
theorem isProper_of_unsigned? {negative : Bool} (h : unsigned? negative cs = some n) :
    n.IsProper ∧ n.chars = if negative then '-' :: layout cs else layout cs := by
  unfold unsigned? at h
  dsimp only at h
  split at h
  · cases h
  · rename_i hne
    cases h
    exact ⟨⟨fun c hc => List.mem_takeWhile_imp hc, fun c hc => isDigit_of_mem_fractionOf c hc,
      not_isEmpty_iff.1 hne⟩, chars_eq _ _ _⟩

/-- If nothing is taken, no decimal without a sign stands at the start. -/
theorem not_isUnsigned_of_unsigned? {negative : Bool} (h : unsigned? negative cs = none)
    (hstart : q <+: cs) : ¬ IsUnsigned q := by
  -- Nothing is read only where neither a digit nor a point with digits is in front.
  have hlayout : layout cs = [] := by
    unfold unsigned? at h
    dsimp only at h
    split at h
    · rename_i hnone
      rw [Bool.and_eq_true, List.isEmpty_iff] at hnone
      rw [layout, hnone.1, tail, if_pos hnone.2, List.nil_append]
    · cases h
  intro hq
  exact hq.ne_nil (List.prefix_nil.1 (hlayout ▸ prefix_layout_of_isUnsigned hq hstart))

/-! ## Signs -/

/-- A decimal at the start of a text that has no sign has none either. -/
theorem IsDecimal.isUnsigned (hq : IsDecimal q) (hw : ∀ rest, w ≠ '-' :: rest) (h : q <+: w) :
    IsUnsigned q := by
  cases hq with
  | plain hq => exact hq
  | negative hq =>
      rcases h with ⟨more, hmore⟩
      exact absurd hmore.symm (hw _)

/-- A decimal at the start of a text with a sign begins with the sign. -/
theorem IsDecimal.exists_eq_cons (hq : IsDecimal q) (h : q <+: '-' :: cs) :
    ∃ text, q = '-' :: text ∧ text <+: cs ∧ IsUnsigned text := by
  cases hq with
  | negative hq => exact ⟨_, rfl, (List.prefix_cons_inj _).1 h, hq⟩
  | plain hq =>
      rcases List.prefix_cons_iff.1 h with rfl | ⟨text, rfl, -⟩
      · exact absurd rfl hq.ne_nil
      · exact absurd hq.head (by decide)

/-- The reader finds the longest decimal. -/
theorem isLongestPrefix_of_leading? (h : leading? w = some n) :
    n.IsProper ∧ IsLongestPrefix IsDecimal n.chars w := by
  unfold leading? at h
  split at h
  · rename_i cs
    rcases isProper_of_unsigned? h with ⟨hproper, hchars⟩
    rw [if_pos rfl] at hchars
    refine ⟨hproper, ?_, isDecimal_iff.2 ⟨n, hproper, rfl⟩, fun q hstart hq => ?_⟩
    · rw [hchars]
      exact (List.prefix_cons_inj _).2 (layout_isPrefix cs)
    · -- Any other prefix has the sign as well, so the unsigned parts are compared.
      rcases hq.exists_eq_cons hstart with ⟨text, rfl, hstart, htext⟩
      rw [hchars]
      exact Nat.succ_le_succ (prefix_layout_of_isUnsigned htext hstart).length_le
  · -- Without a sign in front no prefix has one.
    rename_i hplain
    rcases isProper_of_unsigned? h with ⟨hproper, hchars⟩
    rw [if_neg Bool.false_ne_true] at hchars
    refine ⟨hproper, hchars ▸ layout_isPrefix w, isDecimal_iff.2 ⟨n, hproper, rfl⟩,
      fun q hstart hq => ?_⟩
    rw [hchars]
    exact (prefix_layout_of_isUnsigned (hq.isUnsigned hplain hstart) hstart).length_le

example : IsLongestPrefix IsDecimal "-1234.5".toList (kept "$-1,234.5.6".toList) :=
  (isLongestPrefix_of_leading? (n := ⟨true, "1234".toList, "5".toList⟩) (by decide)).2

/-- If the reader finds nothing, there is no decimal. -/
theorem not_isDecimal_of_leading? (h : leading? w = none) (hstart : p <+: w) :
    ¬ IsDecimal p := by
  intro hp
  unfold leading? at h
  split at h
  · rcases hp.exists_eq_cons hstart with ⟨text, rfl, hstart, htext⟩
    exact not_isUnsigned_of_unsigned? h hstart htext
  · rename_i hplain
    exact not_isUnsigned_of_unsigned? h hstart (hp.isUnsigned hplain hstart)

/-- A decimal denotes a double. -/
theorem IsDecimal.exists_double? (h : IsDecimal p) : ∃ x, Decimal.double? p = some x := by
  rcases isDecimal_iff.1 h with ⟨n, hproper, rfl⟩
  exact ⟨n.toFloat, double?_chars hproper⟩

/-- The text of a decimal is a decimal as a whole. -/
theorem isDecimal_iff_leading? : IsDecimal p ↔ (leading? p).map chars = some p := by
  constructor
  · intro h
    rcases isDecimal_iff.1 h with ⟨n, hproper, rfl⟩
    rw [leading?_chars hproper, Option.map_some]
  · intro h
    rcases Option.map_eq_some_iff.1 h with ⟨n, hfound, rfl⟩
    exact isDecimal_iff.2 ⟨n, (isLongestPrefix_of_leading? hfound).1, rfl⟩

instance : DecidablePred IsDecimal := fun _ => decidable_of_iff _ isDecimal_iff_leading?.symm

end Numeral

open Numeral

/-- The number in a text is what the longest decimal denotes that its kept characters start with.
There is such a decimal unless there is no number, what it denotes is never in question, and the
other characters do not matter. -/
theorem readNumber_reads_longest (s : String) :
    (readNumber s = none ↔ ∀ p, p <+: kept s.toList → ¬ IsDecimal p) ∧
      (∀ x, readNumber s = some x ↔
        ∃ p, IsLongestPrefix IsDecimal p (kept s.toList) ∧ Decimal.double? p = some x) ∧
      (∀ p, IsDecimal p → ∃ x, Decimal.double? p = some x) ∧
      ∀ t : String, kept t.toList = kept s.toList → readNumber t = readNumber s := by
  have hnumber : readNumber s = (leading? (kept s.toList)).map toFloat := rfl
  refine ⟨?_, fun x => ?_, fun p hp => hp.exists_double?, fun t ht => readNumber_congr ht⟩
  · rw [hnumber, Option.map_eq_none_iff]
    constructor
    · exact fun hnone p hp => not_isDecimal_of_leading? hnone hp
    · intro hnone
      cases hfound : leading? (kept s.toList) with
      | none => rfl
      | some n =>
          have hlongest := (isLongestPrefix_of_leading? hfound).2
          exact absurd hlongest.holds (hnone _ hlongest.isPrefix)
  · rw [hnumber, Option.map_eq_some_iff]
    constructor
    · rintro ⟨n, hfound, rfl⟩
      rcases isLongestPrefix_of_leading? hfound with ⟨hproper, hlongest⟩
      exact ⟨n.chars, hlongest, double?_chars hproper⟩
    · -- There is only one longest prefix, and it is the one that is found.
      rintro ⟨p, hlongest, hdouble⟩
      cases hfound : leading? (kept s.toList) with
      | none => exact absurd hlongest.holds (not_isDecimal_of_leading? hfound hlongest.isPrefix)
      | some n =>
          rcases isLongestPrefix_of_leading? hfound with ⟨hproper, hfirst⟩
          rw [hlongest.unique hfirst, double?_chars hproper] at hdouble
          exact ⟨n, rfl, Option.some.inj hdouble⟩

end Worksheet
