import Worksheet.Display
import Worksheet.Proofs.Text.Pieces
import Worksheet.Table.Basic

/-!
# Displayed values as typed texts

What a formula shows may be written to a file in its place, and is typed in again when the file is
read. It must not become a formula then. A number starts with a minus sign, with the currency sign
or with a digit, and behind the currency sign there are only digits, commas and a point. So all
depends on the currency setting, which may be any text without letters: it must not start with an
equals sign, apart from blanks.

## Main definitions

* `IsData`: A text that stays a text when it is typed in.

## Theorems

* `Cell.ofInput_of_isData`: Data that is typed in is shown as it is.
* `Cell.isData_ofInput`: What is shown after typing is data.
* `DisplayStyle.isData_render`: What is shown for a value is data.
-/

namespace Worksheet

open Text

/-- A text that is no formula when it is typed into a cell. -/
def IsData (text : String) : Prop := (trimStart text.toList).head? ≠ some '='

section Texts

variable {text : String}

/-- A text without an equals sign is data. -/
theorem isData_of_not_mem (h : '=' ∉ text.toList) : IsData text := fun hhead =>
  h ((List.dropWhile_sublist isBlank).mem (List.mem_of_mem_head? hhead))

/-- A text that starts with something other than a blank or an equals sign is data. -/
theorem isData_of_head {c : Char} (h : text.toList.head? = some c) (hblank : isBlank c = false)
    (hc : c ≠ '=') : IsData text := by
  rcases List.head?_eq_some_iff.1 h with ⟨rest, hrest⟩
  rw [IsData, hrest, trimStart, List.dropWhile_cons_of_neg (by simp [hblank])]
  simpa using hc

theorem Cell.ofInput_of_isData (h : IsData text) : Cell.ofInput text = .ofText text := if_neg h

/-- What a cell shows after a text has been typed in: the text, or nothing yet if it is a formula. -/
theorem Cell.isData_ofInput (text : String) : IsData (Cell.ofInput text).displayText := by
  by_cases h : IsData text
  · rw [ofInput_of_isData h, displayText, ofText, Content.plainText_run]
    exact h
  · rw [ofInput, if_pos (not_not.1 h), displayText, ofFormula, Content.plainText_empty]
    exact isData_of_not_mem (by simp)

end Texts

/-! ## Numbers -/

namespace Decimal

variable {run : List Char} {places : Nat} {c : Char}

theorem isDigit_of_mem_filled (hrun : ∀ c ∈ run, c.isDigit = true) (h : c ∈ filled run places) :
    c.isDigit = true := by
  rcases List.mem_append.1 h with h | h
  · rw [List.eq_of_mem_replicate h]
    rfl
  · exact hrun c h

theorem isDigit_of_mem_wholeDigits (hrun : ∀ c ∈ run, c.isDigit = true)
    (h : c ∈ wholeDigits run places) : c.isDigit = true :=
  isDigit_of_mem_filled hrun (List.mem_of_mem_take h)

theorem isDigit_of_mem_fractionDigits (hrun : ∀ c ∈ run, c.isDigit = true)
    (h : c ∈ fractionDigits run places) : c.isDigit = true :=
  isDigit_of_mem_filled hrun (List.mem_of_mem_drop h)

end Decimal

/-- Grouping adds commas and nothing else. -/
theorem mem_grouped {c : Char} {ds : List Char} (h : c ∈ grouped ds) : c = ',' ∨ c ∈ ds := by
  fun_induction grouped ds with
  | case1 => exact absurd h List.not_mem_nil
  | case2 d rest hcomma ih =>
      simp only [List.mem_cons] at h ⊢
      rcases h with h | h | h
      · exact Or.inr (Or.inl h)
      · exact Or.inl h
      · exact (ih h).imp_right Or.inr
  | case3 d rest hcomma ih =>
      simp only [List.mem_cons] at h ⊢
      rcases h with h | h
      · exact Or.inr (Or.inl h)
      · exact (ih h).imp_right Or.inr

namespace Fixed

/-- No equals sign stands among the digits of a number. -/
theorem not_mem_digits (f : Fixed) : '=' ∉ grouped f.whole ++ f.tail := by
  have hdigits := Decimal.isDigit_of_mem_digits f.units
  have hequals : ¬ Char.isDigit '=' = true := by decide
  intro h
  -- Digits, commas and a point: none is an equals sign.
  rcases List.mem_append.1 h with h | h
  · rcases mem_grouped h with h | h
    · exact absurd h (by decide)
    · exact hequals (Decimal.isDigit_of_mem_wholeDigits hdigits h)
  · unfold tail at h
    split at h
    · exact absurd h List.not_mem_nil
    · rcases List.mem_cons.1 h with h | h
      · exact absurd h (by decide)
      · exact hequals (Decimal.isDigit_of_mem_fractionDigits hdigits h)

end Fixed

/-! ## Currency signs -/

/-- What a currency setting puts in front of a number starts with no blank, and with an equals sign
    only if the setting does. -/
theorem head_currencyLead {setting : String} (h : (trim setting.toList).head? ≠ some '=') :
    ∀ c ∈ (currencyLead setting).toList.head?, isBlank c = false ∧ c ≠ '=' := by
  have hsign : ∀ code sign, currencySign? code = some sign →
      ∀ c ∈ sign.toList.head?, isBlank c = false ∧ c ≠ '=' := by
    intro code sign hsign c hc
    unfold currencySign? at hsign
    split at hsign <;> cases hsign <;> cases hc <;> exact ⟨by decide, by decide⟩
  unfold currencyLead
  dsimp only
  split
  · rename_i sign hfound
    exact hsign _ sign hfound
  · -- A code that is not known is written out as it is, trimmed.
    split
    · exact fun c hc => absurd hc (Option.not_mem_none c)
    · intro c hc
      rw [String.toList_ofList] at hc
      refine ⟨?_, ?_⟩
      · rw [head?_trim] at hc
        exact endsRun_dropWhile isBlank _ c hc
      · rintro rfl
        exact h hc

namespace DisplayStyle

variable {style : DisplayStyle}

/-- What stands in front of a number does not start with a blank or an equals sign, if the currency
    setting does not. -/
theorem head_lead (h : ∀ setting ∈ style.currency, (trim setting.toList).head? ≠ some '=') :
    ∀ c ∈ style.lead.toList.head?, isBlank c = false ∧ c ≠ '=' := by
  unfold lead
  split
  · rename_i setting hsetting
    exact head_currencyLead (h setting hsetting)
  · exact fun c hc => absurd hc (Option.not_mem_none c)

/-- A displayed value is data, not a formula. -/
theorem isData_renderBinary
    (h : ∀ setting ∈ style.currency, (trim setting.toList).head? ≠ some '=') (b : Binary) :
    IsData (style.renderBinary b) := by
  have hlead := head_lead h
  have hdigits := (Fixed.ofBinary b style.places).not_mem_digits
  unfold renderBinary
  dsimp only
  generalize Fixed.ofBinary b style.places = f at hdigits
  unfold Fixed.sign
  -- The first character is the minus sign, the first one of the currency, or a digit.
  split
  · refine isData_of_head (c := '-') ?_ (by decide) (by decide)
    simp
  · cases hcurrency : style.lead.toList with
    | nil =>
        refine isData_of_not_mem ?_
        simpa using hdigits
    | cons c rest =>
        rw [hcurrency] at hlead
        rcases hlead c rfl with ⟨hblank, hc⟩
        refine isData_of_head ?_ hblank hc
        simp

/-- Whatever is shown for a value is data, unless the currency starts with an equals sign. -/
theorem isData_render (h : ∀ setting ∈ style.currency, (trim setting.toList).head? ≠ some '=')
    (o : Outcome) : IsData (style.render o) := by
  have hfailure : IsData failureText := isData_of_not_mem (by simp [failureText])
  have hmissing : IsData missingText := isData_of_not_mem (by simp [missingText])
  rcases o with e | x
  · exact hfailure
  · cases x with
    | none => exact hmissing
    | some x =>
        rw [render, renderNumber]
        split
        · exact isData_renderBinary h _
        · exact hfailure

end DisplayStyle

end Worksheet
