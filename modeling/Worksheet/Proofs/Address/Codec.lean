import Worksheet.Proofs.Machine.Address
import Worksheet.Proofs.Text.Pieces

/-!
# The written form of addresses

Every address has one written form, and a text names an address exactly if it is letters and then
digits that spell a column and a row of the grid. Other texts that name it differ from the written
form in the case of letters and in zeros in front of the row number, and in nothing else. So tables
kept under written forms never mix up two cells, and every spelling of a cell finds it.

Positions may also be given by two numbers that need not be indices of the grid. Then there is
nothing to write, and an empty text is written instead, which names no address.

## Main definitions

* `Address.Spells`: Letters and digits that spell a column and a row.
* `Address.textAt`: The written form of a position given by two numbers.

## Theorems

* `Address.spells_of_ofChars?`, `Address.exists_ofChars?`: The texts that name addresses.
* `Address.textAt_eq_empty_iff`: Nothing is written exactly for positions outside the grid.
* `Address.codec`: Reading and writing undo each other, at the limits of the grid and of words.
-/

namespace Worksheet

namespace Address

/-- A text consists of letters and digits that spell a column and a row of the grid. -/
structure Spells (text letters digits : List Char) : Prop where
  /-- The text is the letters and then the digits. -/
  eq : text = letters ++ digits
  /-- There are letters. -/
  letters_ne_nil : letters ≠ []
  /-- They are letters of ASCII, capital or small. -/
  isAlpha : ∀ c ∈ letters, c.isAlpha = true
  /-- There are digits. -/
  digits_ne_nil : digits ≠ []
  /-- They are digits of ASCII. -/
  isDigit : ∀ c ∈ digits, c.isDigit = true
  /-- The letters spell a column. -/
  column : 1 ≤ Column.number letters ∧ Column.number letters ≤ 2 ^ 32
  /-- The digits denote a row. -/
  row : 1 ≤ Decimal.value digits ∧ Decimal.value digits ≤ 2 ^ 32

/-- The written form of the position with the given indices, and nothing if it is outside the
    grid. -/
def textAt (col row : Int) : String := ((ofInts? col row).map text).getD ""

section Spelling

variable {word letters digits : List Char} {a : Address}

/-- An address is spelled by the letters in front and the rest. -/
theorem spells_of_ofChars? (h : ofChars? word = some a) :
    Spells word (word.takeWhile Char.isAlpha) (word.dropWhile Char.isAlpha) := by
  rcases ofChars?_eq_some_iff.1 h with ⟨hcol, hdigits, hrow⟩
  rcases Column.read_eq_ok_iff.1 hcol with ⟨hne, hletters, hlimit, hnumber⟩
  have hcolumn : Column.limit = 2 ^ 32 := rfl
  have hrows := a.row_lt
  exact ⟨List.takeWhile_append_dropWhile.symm, hne, hletters, (letters_digits_of_ofChars? h).2.1,
    hdigits, ⟨by omega, by omega⟩, by omega, by omega⟩

theorem Spells.endsRun (h : Spells word letters digits) : Text.EndsRun Char.isAlpha digits :=
  fun c hc => not_isAlpha_of_isDigit (h.isDigit c (List.mem_of_mem_head? hc))

/-- The letters of a spelling are those in front of the word. -/
theorem Spells.takeWhile_eq (h : Spells word letters digits) :
    word.takeWhile Char.isAlpha = letters := by
  rw [h.eq, Text.takeWhile_run h.isAlpha h.endsRun]

theorem Spells.dropWhile_eq (h : Spells word letters digits) :
    word.dropWhile Char.isAlpha = digits := by
  rw [h.eq, Text.dropWhile_run h.isAlpha h.endsRun]

/-- Every spelling is read. -/
theorem exists_ofChars? (h : Spells word letters digits) : ∃ a, ofChars? word = some a := by
  have hcol := h.column
  have hrow := h.row
  -- Written indices count from one, and neither is zero.
  refine ⟨⟨Column.number letters - 1, Decimal.value digits - 1, ?_, ?_⟩,
    ofChars?_eq_some_iff.2 ⟨?_, ?_, ?_⟩⟩
  · change Column.number letters - 1 < 2 ^ 32
    omega
  · change Decimal.value digits - 1 < 2 ^ 32
    omega
  · rw [h.takeWhile_eq, Column.read_eq_ok_iff]
    refine ⟨h.letters_ne_nil, h.isAlpha, ?_, ?_⟩
    · change Column.number letters - 1 + 1 ≤ 2 ^ 32
      omega
    · exact (Nat.sub_add_cancel hcol.1).symm
  · rw [h.dropWhile_eq]
    exact h.isDigit
  · rw [h.dropWhile_eq]
    exact (Nat.sub_add_cancel hrow.1).symm

/-- What is read are the spellings, and nothing else. -/
theorem exists_ofChars?_iff :
    (∃ a, ofChars? word = some a) ↔ ∃ letters digits, Spells word letters digits :=
  ⟨fun ⟨_, h⟩ => ⟨_, _, spells_of_ofChars? h⟩, fun ⟨_, _, h⟩ => exists_ofChars? h⟩

/-- What a spelling of an address looks like. -/
theorem ofChars?_eq_some_iff_spells : ofChars? word = some a ↔ ∃ letters digits,
    Spells word letters digits ∧
      a.chars = letters.map Char.toUpper ++ digits.dropWhile (· = '0') := by
  constructor
  · exact fun h => ⟨_, _, spells_of_ofChars? h, chars_of_ofChars? h⟩
  · rintro ⟨letters, digits, h, hchars⟩
    -- The text names an address, and that one has the same written form.
    rcases exists_ofChars? h with ⟨b, hb⟩
    have hsame : a.chars = b.chars := by
      rw [hchars, chars_of_ofChars? hb, h.takeWhile_eq, h.dropWhile_eq]
    rw [hb, ← ofChars?_chars a, hsame, ofChars?_chars]

end Spelling

section Indices

variable {col row : Int} {a : Address}

theorem text_ne_empty (a : Address) : a.text ≠ "" := by
  intro h
  have hread := parse?_text a
  rw [h] at hread
  cases hread

/-- Either the position is outside the grid and nothing is written, or it is written and read
    back. -/
theorem textAt_cases (col row : Int) :
    textAt col row = "" ∧ (col < 0 ∨ 2 ^ 32 ≤ col ∨ row < 0 ∨ 2 ^ 32 ≤ row) ∨
      ∃ a : Address, textAt col row = a.text ∧ (a.col : Int) = col ∧ (a.row : Int) = row := by
  rw [textAt]
  cases h : ofInts? col row with
  | some a => exact Or.inr ⟨a, rfl, ofInts?_eq_some_iff.1 h⟩
  | none =>
      refine Or.inl ⟨rfl, ?_⟩
      -- Indices inside the grid would make an address.
      by_contra hin
      have hcol : col.toNat < 2 ^ 32 := by omega
      have hrow : row.toNat < 2 ^ 32 := by omega
      have hsome : ofInts? col row = some ⟨col.toNat, row.toNat, hcol, hrow⟩ := by
        rw [ofInts?_eq_some_iff]
        simp only [Int.toNat_of_nonneg (show 0 ≤ col by omega),
          Int.toNat_of_nonneg (show 0 ≤ row by omega), and_self]
      rw [hsome] at h
      cases h

/-- The text of a pair of indices is empty exactly when one of them lies outside the grid. -/
theorem textAt_eq_empty_iff :
    textAt col row = "" ↔ col < 0 ∨ 2 ^ 32 ≤ col ∨ row < 0 ∨ 2 ^ 32 ≤ row := by
  rcases textAt_cases col row with ⟨hempty, hout⟩ | ⟨a, htext, hcol, hrow⟩
  · exact iff_of_true hempty hout
  · have hcols := a.col_lt_two_pow
    have hrows := a.row_lt_two_pow
    refine iff_of_false ?_ (by omega)
    rw [htext]
    exact a.text_ne_empty

end Indices

/-- Reading undoes writing, so no two addresses are written alike. A text names an address exactly
    if it is letters and digits that spell a column and a row of the grid, and the address is then
    written in capital letters and without zeros in front of the row number. Both ways nothing
    overflows a word. A position given by two numbers is written exactly if it is in the grid, and
    then read back. -/
theorem codec :
    (∀ a : Address, parse a.text = .ok a ∧ ∀ b : Address, b.text = a.text ↔ b = a) ∧
    (∀ s : String, ((∃ a, parse s = .ok a) ↔ ∃ letters digits, Spells s.toList letters digits) ∧
      ∀ a, parse s = .ok a ↔ ∃ letters digits, Spells s.toList letters digits ∧
        a.text.toList = letters.map Char.toUpper ++ digits.dropWhile (· = '0')) ∧
    (∀ s : String,
      Machine.read? s.toList = some ((parse s).map Machine.Position.ofAddress)) ∧
    (∀ a : Address, Machine.chars? (Machine.Position.ofAddress a) = some a.text.toList) ∧
    ∀ col row : Int,
      (textAt col row = "" ↔ col < 0 ∨ 2 ^ 32 ≤ col ∨ row < 0 ∨ 2 ^ 32 ≤ row) ∧
      (textAt col row = "" ∨
        ∃ a, parse? (textAt col row) = some a ∧ (a.col : Int) = col ∧ (a.row : Int) = row) := by
  -- Texts and lists of characters are told apart here once and for all.
  have hparse : ∀ (s : String) (a : Address), parse s = .ok a ↔ ofChars? s.toList = some a :=
    fun s a => toOption_eq_some_iff.symm
  have htext : ∀ a : Address, a.text.toList = a.chars := fun a => String.toList_ofList
  refine ⟨fun a => ⟨?_, fun b => ⟨text_injective, congrArg text⟩⟩, fun s => ⟨?_, fun a => ?_⟩,
    fun s => Machine.read?_eq s.toList, fun a => ?_, fun col row => ⟨textAt_eq_empty_iff, ?_⟩⟩
  · exact toOption_eq_some_iff.1 (parse?_text a)
  · simp only [hparse, exists_ofChars?_iff]
  · rw [hparse, htext, ofChars?_eq_some_iff_spells]
  · rw [htext, Machine.chars?_ofAddress]
  · rcases textAt_cases col row with ⟨hempty, _⟩ | ⟨a, hwritten, hindices⟩
    · exact Or.inl hempty
    · exact Or.inr ⟨a, by rw [hwritten, parse?_text], hindices⟩

end Address

end Worksheet
