import Worksheet.Address.Basic
import Worksheet.Proofs.Text.Ascii

/-!
# Reading back written addresses

An address is read back from its written form, so no two addresses are written alike. This is what
lets tables of formulas and of remembered values be kept under written forms.

The written form falls apart where the letters end: every letter of a column is a capital one, and
the row number that follows starts with a digit. Reading the letters undoes writing them digit by
digit in base 26, as neither knows a zero.

## Theorems

* `Column.read_letters`: The letters of a column number spell that number.
* `Address.ofChars_chars`: The written form of an address names it.
* `Address.text_injective`: Addresses with the same written form are the same.
-/

namespace Worksheet

namespace Column

theorem isUpper_letter : ∀ d < 26, (letter d).isUpper = true := by
  decide

theorem letterValue_letter : ∀ d < 26, letterValue (letter d) = d + 1 := by
  decide

/-- A column is written in capital letters. -/
theorem isUpper_of_mem_letters (n : Nat) : ∀ c ∈ letters n, c.isUpper = true := by
  -- The last letter comes off first, so the induction is on the quotient by 26.
  induction n using Nat.strongRecOn with
  | _ n ih =>
      intro c hc
      cases n with
      | zero =>
          rw [letters] at hc
          exact absurd hc List.not_mem_nil
      | succ m =>
          rw [letters_succ] at hc
          rcases List.mem_append.1 hc with hc | hc
          · exact ih (m / 26) (by omega) c hc
          · rw [List.mem_singleton.1 hc]
            exact isUpper_letter _ (Nat.mod_lt m (by omega))

/-- Every column has a letter. -/
theorem letters_ne_nil {n : Nat} (h : 0 < n) : letters n ≠ [] := by
  cases n with
  | zero => exact absurd h (Nat.lt_irrefl 0)
  | succ m =>
      rw [letters_succ]
      exact List.append_ne_nil_of_right_ne_nil _ (List.cons_ne_nil _ _)

-- The first part is read to the end, or the reading stops in it on both sides.
theorem readFrom_append (text : List Char) (number : Nat) (first second : List Char) :
    readFrom text number (first ++ second) =
      (readFrom text number first).bind fun between => readFrom text between second := by
  induction first generalizing number with
  | nil => rfl
  | cons c rest ih =>
      rw [List.cons_append, readFrom, readFrom]
      split
      · split
        · exact ih _
        · rfl
      · rfl

/-- The letters of a column are read back, starting from none. -/
theorem readFrom_letters (text : List Char) (n : Nat) (h : n ≤ limit) :
    readFrom text 0 (letters n) = .ok n := by
  induction n using Nat.strongRecOn with
  | _ n ih =>
      cases n with
      | zero =>
          rw [letters]
          rfl
      | succ m =>
          have hdigit : m % 26 < 26 := Nat.mod_lt m (by omega)
          have hbefore : readFrom text 0 (letters (m / 26)) = .ok (m / 26) :=
            ih (m / 26) (by omega) (by omega)
          -- The last letter multiplies by 26 and adds its place, which starts at one.
          have hnumber : m / 26 * 26 + letterValue (letter (m % 26)) = m + 1 := by
            rw [letterValue_letter _ hdigit]
            omega
          have halpha : (letter (m % 26)).isAlpha = true :=
            isAlpha_of_isUpper (isUpper_letter _ hdigit)
          rw [letters_succ, readFrom_append, hbefore, Except.bind, readFrom, if_pos halpha, hnumber,
            if_pos h, readFrom]

theorem read_letters {n : Nat} (hpos : 0 < n) (h : n ≤ limit) : read (letters n) = .ok n := by
  rw [read, if_neg, readFrom_letters _ n h]
  rw [List.isEmpty_iff]
  exact letters_ne_nil hpos

end Column

namespace Address

/-- A column is written in letters. -/
theorem isAlpha_of_mem_letters (n : Nat) : ∀ c ∈ Column.letters n, c.isAlpha = true :=
  fun c hc => isAlpha_of_isUpper (Column.isUpper_of_mem_letters n c hc)

/-- The letters of an address end where the row begins. -/
theorem takeWhile_isAlpha_chars (a : Address) :
    a.chars.takeWhile Char.isAlpha = Column.letters (a.col + 1) := by
  -- The row number starts with a digit, so the letters end where it starts.
  have hdigits : (Decimal.digits (a.row + 1)).takeWhile Char.isAlpha = [] := by
    cases h : Decimal.digits (a.row + 1) with
    | nil => rfl
    | cons d rest =>
        have hd : d.isDigit = true := Decimal.isDigit_of_mem_digits (a.row + 1) d (by rw [h]; simp)
        rw [List.takeWhile_cons, not_isAlpha_of_isDigit hd]
        rfl
  rw [chars, List.takeWhile_append_of_pos (isAlpha_of_mem_letters _), hdigits, List.append_nil]

theorem dropWhile_isAlpha_chars (a : Address) :
    a.chars.dropWhile Char.isAlpha = Decimal.digits (a.row + 1) := by
  have h := List.takeWhile_append_dropWhile (p := Char.isAlpha) (l := a.chars)
  rw [takeWhile_isAlpha_chars] at h
  exact List.append_cancel_left h

/-- An address is read back from its characters. -/
theorem ofChars_chars (a : Address) : ofChars a.chars = .ok a := by
  have hletters : (Column.letters (a.col + 1)).isEmpty = false := by
    rw [List.isEmpty_eq_false_iff]
    exact Column.letters_ne_nil (Nat.succ_pos _)
  have hdigits : (Decimal.digits (a.row + 1)).isEmpty = false := by
    rw [List.isEmpty_eq_false_iff]
    exact Decimal.digits_ne_nil _
  have hall : (Decimal.digits (a.row + 1)).all Char.isDigit = true :=
    List.all_eq_true.2 (Decimal.isDigit_of_mem_digits _)
  -- Column and row are both written one greater than they are counted.
  have hcol : readColumn (Column.letters (a.col + 1)) = .ok ⟨a.col, a.col_lt⟩ := by
    have hread := Column.read_letters (Nat.succ_pos a.col) a.col_lt
    unfold readColumn
    split
    · rename_i e he
      rw [hread] at he
      cases he
    · rename_i number hnumber
      rw [hread] at hnumber
      cases hnumber
      rfl
  have hrow : readRow a.chars (Decimal.digits (a.row + 1)) = .ok ⟨a.row, a.row_lt⟩ := by
    unfold readRow
    rw [Decimal.value_digits]
    simp only [a.row_lt, dite_true]
  simp only [ofChars, takeWhile_isAlpha_chars, dropWhile_isAlpha_chars, hletters, hdigits,
    Bool.or_false, Bool.false_eq_true, if_false, hall, if_true, hcol, hrow]
  rfl

theorem ofChars?_chars (a : Address) : ofChars? a.chars = some a := by
  rw [ofChars?, ofChars_chars]
  rfl

/-- An address is read back from its text. -/
theorem parse?_text (a : Address) : parse? a.text = some a := by
  rw [parse?, text, String.toList_ofList, ofChars?_chars]

/-- Different addresses have different texts. -/
theorem text_injective {a b : Address} (h : a.text = b.text) : a = b := by
  have hchars : a.chars = b.chars := by
    rw [text, text, String.ofList_inj] at h
    exact h
  have hread : ofChars? a.chars = ofChars? b.chars := by rw [hchars]
  rw [ofChars?_chars, ofChars?_chars, Option.some.injEq] at hread
  exact hread

end Address

end Worksheet
