import Worksheet.Decimal.Fixed
import Worksheet.Evaluation.Basic
import Worksheet.Text.Alphabetic
import Worksheet.Text.Blank

/-!
# Displayed values

How the value of a formula is shown in its cell: a number with a fixed number of places and commas
between groups of three digits, with a currency sign between the minus sign and the digits. A value
that is missing shows as a dash and one that could not be computed as a word, so something is always
shown.

A currency is given by a code or by the sign itself. A known code stands for its sign; any other
text with a letter in it is taken for an unknown code and shows nothing.

## Main definitions

* `currencySign?`: The sign for a currency code.
* `currencyLead`: What is shown for a currency setting.
* `grouped`: Digits with commas between groups of three.
* `DisplayStyle`: A currency setting and a number of places.
* `DisplayStyle.render`: The text shown for a value.

## Theorems

* `filter_grouped`: Without its commas the grouped text is the digits again.
* `DisplayStyle.render_error`: A failure shows as a word whatever the style.
-/

namespace Worksheet

/-- The sign for a currency code, in any case of letters. -/
def currencySign? (code : String) : Option String :=
  match String.ofList (code.toList.map Char.toUpper) with
  | "USD" => some "$"
  | "EUR" => some "€"
  | "GBP" => some "£"
  | "JPY" | "CNY" => some "¥"
  | "INR" => some "₹"
  | "KRW" => some "₩"
  | "CHF" => some "CHF "
  | _ => none

/-- What is shown in front of a number for a currency setting, blanks around it apart. -/
def currencyLead (setting : String) : String :=
  let trimmed := Text.trim setting.toList
  match currencySign? (String.ofList trimmed) with
  | some sign => sign
  | none => if trimmed.any Text.isAlphabetic then "" else String.ofList trimmed

/-- Digits with commas between groups of three, counted from the last. -/
def grouped : List Char → List Char
  | [] => []
  | d :: rest =>
    if rest.length % 3 = 0 ∧ rest ≠ [] then d :: ',' :: grouped rest else d :: grouped rest

/-- What is shown for a value that is missing. -/
def missingText : String := "—"

/-- What is shown for a value that could not be computed. -/
def failureText : String := "Error"

/-- How numbers are shown. -/
structure DisplayStyle where
  /-- A currency code or sign. -/
  currency : Option String := none
  /-- How many places are shown; no more than a decimal has. -/
  decimals : Nat := 2
  deriving DecidableEq, Repr

namespace DisplayStyle

/-- The number of places that are shown. -/
def places (style : DisplayStyle) : Nat := min style.decimals Decimal.maxPlaces

/-- What is shown between the minus sign and the digits. -/
def lead (style : DisplayStyle) : String :=
  match style.currency with
  | some setting => currencyLead setting
  | none => ""

/-- The text shown for a finite number. -/
def renderBinary (style : DisplayStyle) (b : Binary) : String :=
  let fixed := Fixed.ofBinary b style.places
  String.ofList (fixed.sign ++ style.lead.toList ++ grouped fixed.whole ++ fixed.tail)

/-- The text shown for a number. -/
def renderNumber (style : DisplayStyle) (x : Float) : String :=
  match Binary.ofFloat? x with
  | some b => style.renderBinary b
  | none => failureText

/-- The text shown for the value of a formula. -/
def render (style : DisplayStyle) : Outcome → String
  | .ok (some x) => style.renderNumber x
  | .ok none => missingText
  | .error _ => failureText

theorem render_error (style : DisplayStyle) (e : FormulaError) :
    style.render (.error e) = failureText := rfl

end DisplayStyle

theorem filter_grouped (ds : List Char) (h : ',' ∉ ds) : (grouped ds).filter (· ≠ ',') = ds := by
  induction ds with
  | nil => rfl
  | cons d rest ih =>
    rw [List.mem_cons, not_or] at h
    have hd : d ≠ ',' := Ne.symm h.1
    rw [grouped]
    split <;> simp only [List.filter_cons, hd, ne_eq, not_false_eq_true, decide_true, if_true,
      not_true_eq_false, decide_false, Bool.false_eq_true, if_false, ih h.2]

end Worksheet
