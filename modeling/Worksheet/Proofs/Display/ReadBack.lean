import Worksheet.Proofs.Decimal.Written
import Worksheet.Proofs.Snapshot.Numeral

/-!
# Reading displayed numbers back

A number that is displayed is read as the number shown when a table is evaluated again. Reading
drops the commas, and the currency as far as it has no characters of numbers. What is left is the
number as it is laid out: the sign, the digits before the point, and those behind it if there are
places. There is nothing else, so the longest decimal at the start is all of it.

A currency setting may be any text, and with digits in it the number would be another one. Settings
with letters are safe, since a known code stands for a sign without such characters and other texts
with letters are not shown.

The dash for a missing value and the word for a failure hold no digits and are read as no number.

## Main definitions

* `IsPlainCurrency`: A currency setting that shows no characters of numbers.
* `DisplayStyle.HasPlainCurrency`: The same for the setting of a style, if there is one.

## Theorems

* `kept_grouped`: Grouping adds nothing that is kept.
* `DisplayStyle.kept_lead`: A plain currency shows nothing that is kept.
* `DisplayStyle.readNumber_render`: What is displayed reads back as the number shown, or as none.
-/

namespace Worksheet

open Text

/-! ## Kept characters -/

namespace Numeral

section Kept

variable {cs ds : List Char}

/-- What is kept of two texts in a row is what is kept of each. -/
theorem kept_append : kept (cs ++ ds) = kept cs ++ kept ds := List.filter_append _ _

theorem kept_eq_nil (h : ∀ c ∈ cs, isKept c = false) : kept cs = [] :=
  List.filter_eq_nil_iff.2 fun c hc => by rw [h c hc]; decide

theorem kept_digits (h : ∀ c ∈ cs, c.isDigit = true) : kept cs = cs :=
  List.filter_eq_self.2 fun c hc => by rw [isKept, h c hc]; rfl

end Kept

end Numeral

/-- Grouping adds nothing that is kept. -/
theorem kept_grouped {ds : List Char} (h : ∀ c ∈ ds, c.isDigit = true) :
    Numeral.kept (grouped ds) = ds := by
  have hcomma : ',' ∉ ds := fun hmem => absurd (h _ hmem) (by decide)
  -- Commas are not kept, so they can be dropped before.
  have hdropped : ∀ c : Char, (Numeral.isKept c && decide (c ≠ ',')) = Numeral.isKept c := by
    intro c
    by_cases hc : c = ','
    · rw [hc]
      rfl
    · rw [decide_eq_true hc, Bool.and_true]
  calc Numeral.kept (grouped ds) = Numeral.kept ((grouped ds).filter (· ≠ ',')) := by
        rw [Numeral.kept, Numeral.kept, List.filter_filter]
        exact List.filter_congr fun c _ => (hdropped c).symm
    _ = ds := by rw [filter_grouped ds hcomma, Numeral.kept_digits h]

namespace Fixed

variable (f : Fixed)

/-- The sign of a number is kept. -/
theorem kept_sign : Numeral.kept f.sign = f.sign := by
  unfold sign
  split <;> rfl

/-- The point and the decimals are kept. -/
theorem kept_tail : Numeral.kept f.tail = f.tail := by
  refine List.filter_eq_self.2 fun c hc => ?_
  rcases cases_of_mem_tail hc with rfl | hdigit
  · rfl
  · rw [Numeral.isKept, hdigit]
    rfl

/-- The number that is laid out is read as itself. -/
theorem leading?_text : Numeral.leading? f.text = some f.numeral := by
  have hwrites := f.writes_numeral
  have hproper : f.numeral.IsProper :=
    ⟨fun c hc => hwrites.isDigit c (List.mem_append_left _ hc),
      fun c hc => hwrites.isDigit c (List.mem_append_right _ hc), Or.inl hwrites.whole_ne_nil⟩
  rw [← f.chars_numeral]
  exact Numeral.leading?_chars hproper

end Fixed

/-! ## Currencies -/

section Currencies

variable {setting : String} {c : Char}

/-- Trimming takes away blanks only. -/
theorem mem_trim {t : List Char} (hc : c ∈ t) (hblank : isBlank c = false) : c ∈ trim t := by
  rcases exists_trim t with ⟨before, behind, ht, hbefore, hbehind, _⟩
  rw [ht] at hc
  rcases List.mem_append.1 hc with hc | hc
  · rcases List.mem_append.1 hc with hc | hc
    · rw [hbefore c hc] at hblank
      cases hblank
    · exact hc
  · rw [hbehind c hc] at hblank
    cases hblank

theorem mem_of_mem_trim {t : List Char} (hc : c ∈ trim t) : c ∈ t := by
  rcases exists_trim t with ⟨before, behind, ht, _⟩
  rw [ht]
  exact List.mem_append_left _ (List.mem_append_right _ hc)

/-- No currency sign that stands for a code is read as part of a number. -/
theorem kept_currencySign {code sign : String} (h : currencySign? code = some sign) :
    Numeral.kept sign.toList = [] := by
  unfold currencySign? at h
  split at h <;> cases h <;> decide

/-- A known code, a text with a letter, or a text without characters of numbers. -/
def IsPlainCurrency (setting : String) : Prop :=
  (currencySign? (String.ofList (trim setting.toList))).isSome = true ∨
    (∃ c ∈ setting.toList, isAlphabetic c = true) ∨
    ∀ c ∈ setting.toList, c.isDigit = false ∧ c ≠ '.' ∧ c ≠ '-'

theorem kept_currencyLead (h : IsPlainCurrency setting) :
    Numeral.kept (currencyLead setting).toList = [] := by
  unfold currencyLead
  dsimp only
  cases hsign : currencySign? (String.ofList (trim setting.toList)) with
  | some sign => exact kept_currencySign hsign
  | none =>
      dsimp only
      by_cases hletter : (trim setting.toList).any isAlphabetic = true
      · rw [if_pos hletter]
        rfl
      · rw [if_neg hletter, String.toList_ofList]
        refine Numeral.kept_eq_nil fun c hc => ?_
        rcases h with hknown | ⟨d, hd, halphabetic⟩ | hnone
        · rw [hsign] at hknown
          cases hknown
        · -- A letter is no blank, so it is still there.
          have hword : isWord d = true := by rw [isWord, halphabetic]; rfl
          have hmem := mem_trim hd (not_isBlank_of_isWord hword)
          exact absurd (List.any_eq_true.2 ⟨d, hmem, halphabetic⟩) hletter
        · rcases hnone c (mem_of_mem_trim hc) with ⟨hdigit, hpoint, hminus⟩
          simp [Numeral.isKept, hdigit, hpoint, hminus]

end Currencies

namespace DisplayStyle

/-- The currency setting, if there is one, shows no characters of numbers. -/
def HasPlainCurrency (style : DisplayStyle) : Prop :=
  ∀ setting ∈ style.currency, IsPlainCurrency setting

variable {style : DisplayStyle}

/-- Nothing is kept of what stands in front of a number under such a style. -/
theorem kept_lead (h : style.HasPlainCurrency) : Numeral.kept style.lead.toList = [] := by
  unfold lead
  split
  · rename_i setting hsetting
    exact kept_currencyLead (h setting hsetting)
  · rfl

/-- What is kept of a displayed value is its fixed text without the grouping. -/
theorem kept_renderBinary (h : style.HasPlainCurrency) (b : Binary) :
    Numeral.kept (style.renderBinary b).toList = (Fixed.ofBinary b style.places).text := by
  rw [renderBinary, String.toList_ofList]
  generalize Fixed.ofBinary b style.places = f
  rw [Numeral.kept_append, Numeral.kept_append, Numeral.kept_append, f.kept_sign, kept_lead h,
    kept_grouped fun _ => Fixed.isDigit_of_mem_whole, f.kept_tail, List.append_nil, Fixed.text]

/-- A number that is displayed with a plain currency reads back as the number shown, and what is
    displayed without a number as none. -/
theorem readNumber_render :
    (∀ (style : DisplayStyle) (x : Float) (b : Binary), Binary.ofFloat? x = some b →
      style.HasPlainCurrency →
      let f := Fixed.ofBinary b style.places
      f.Writes f.numeral ∧ f.numeral.chars = f.text ∧
        readNumber (style.render (.ok (some x))) = some f.numeral.toFloat) ∧
    (∀ (style : DisplayStyle) (x : Float), Binary.ofFloat? x = none →
      readNumber (style.render (.ok (some x))) = none) ∧
    (∀ style : DisplayStyle, readNumber (style.render (.ok none)) = none) ∧
    ∀ (style : DisplayStyle) (e : FormulaError), readNumber (style.render (.error e)) = none := by
  have hfailure : readNumber failureText = none := rfl
  have hmissing : readNumber missingText = none := rfl
  refine ⟨fun style x b hx hplain => ?_, fun style x hx => ?_, fun _ => hmissing,
    fun _ _ => hfailure⟩
  · refine ⟨Fixed.writes_numeral _, Fixed.chars_numeral _, ?_⟩
    rw [render, renderNumber, hx]
    dsimp only
    -- The currency and the commas are dropped, and all of what is left is a numeral.
    rw [readNumber, kept_renderBinary hplain, Fixed.leading?_text]
    rfl
  · rw [render, renderNumber, hx]
    exact hfailure

-- A number that does not fit a coefficient with all its places, behind a known code.
theorem readNumber_render_of_code :
    let style : DisplayStyle := { currency := some " chf", decimals := 40 }
    let b : Binary := ⟨true, 0x13488a3d70a3d7, -42⟩
    Binary.ofFloat? (-1234.135) = some b ∧ style.HasPlainCurrency ∧
      (Fixed.ofBinary b style.places).text = "-1234.1349999999999909050529822707".toList ∧
      readNumber (style.render (.ok (some (-1234.135)))) = some (-1234.135) := by
  intro style b
  have hx : Binary.ofFloat? (-1234.135) = some b := by decide
  have hplain : style.HasPlainCurrency := by
    rintro setting ⟨rfl⟩
    exact Or.inl (by decide +kernel)
  have hnumber : (Fixed.ofBinary b style.places).numeral =
      ⟨true, "1234".toList, "1349999999999909050529822707".toList⟩ := by decide +kernel
  rcases readNumber_render.1 style (-1234.135) b hx hplain with ⟨_, htext, hread⟩
  rw [hnumber] at htext hread
  refine ⟨hx, hplain, htext.symm, ?_⟩
  rw [hread]
  decide +kernel

end DisplayStyle

end Worksheet
