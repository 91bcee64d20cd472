import Mathlib.Data.List.TakeWhile
import Worksheet.Proofs.Address.RoundTrip
import Worksheet.Proofs.Attempt
import Worksheet.Proofs.Decimal.Digits

/-!
# What names an address

A text names an address if it falls into letters and digits, at least one of each, and both spell
numbers of the grid. The letters are checked against the edge of the grid one by one, but more
letters never spell a smaller number, so only the number they spell in the end matters.

A column has one spelling in capital letters, and a row one without zeros in front. So the address
is written as it was read, but for the case of the letters and the zeros.

## Main definitions

* `Column.number`: The number that letters spell in bijective base 26.

## Theorems

* `Column.read_eq_ok_iff`: Letters are read as the number they spell, if it is one of the grid.
* `Column.letters_number`: The number that letters spell is written in the same capital letters.
* `Address.ofChars?_eq_some_iff`: What it takes to name an address.
* `Address.ofChars?_map_toUpper`: Capital letters name the same address.
* `Address.chars_of_ofChars?`: How an address is written that was read.
-/

namespace Worksheet

namespace Column

/-- The number that letters spell in bijective base 26, be it of the grid or not. -/
def number (letters : List Char) : Nat := letters.foldl (fun n c => n * 26 + letterValue c) 0

/-- One more letter multiplies the number of the others by 26. -/
theorem number_append_singleton (letters : List Char) (c : Char) :
    number (letters ++ [c]) = number letters * 26 + letterValue c := by
  rw [number, List.foldl_append]
  rfl

-- The number that has been spelled so far never gets smaller.
theorem le_foldl_letterValue (n : Nat) (letters : List Char) :
    n ≤ letters.foldl (fun n c => n * 26 + letterValue c) n := by
  induction letters generalizing n with
  | nil => exact Nat.le_refl n
  | cons c rest ih =>
      have hrest := ih (n * 26 + letterValue c)
      rw [List.foldl_cons]
      omega

/-- Letters are read from a number on exactly when their number stays within the limit; the check
    after each letter asks no more, since the number only grows. -/
theorem readFrom_eq_ok_iff {text letters : List Char} {number n : Nat} (h : number ≤ limit) :
    readFrom text number letters = .ok n ↔ (∀ c ∈ letters, c.isAlpha = true) ∧ n ≤ limit ∧
      letters.foldl (fun n c => n * 26 + letterValue c) number = n := by
  induction letters generalizing number with
  | nil =>
      rw [readFrom, Except.ok.injEq, List.foldl_nil]
      constructor
      · rintro rfl
        exact ⟨by simp, h, rfl⟩
      · exact fun h => h.2.2
  | cons c rest ih =>
      rw [readFrom, List.forall_mem_cons, List.foldl_cons]
      by_cases halpha : c.isAlpha = true
      · by_cases hlimit : number * 26 + letterValue c ≤ limit
        · rw [if_pos halpha, if_pos hlimit, ih hlimit, and_iff_right halpha]
        · -- Too large already: more letters cannot bring the number back within the limit.
          have hle := le_foldl_letterValue (number * 26 + letterValue c) rest
          rw [if_pos halpha, if_neg hlimit]
          refine iff_of_false (by simp) ?_
          omega
      · rw [if_neg halpha]
        refine iff_of_false (by simp) fun h => ?_
        exact halpha h.1.1

/-- Letters are read as the number they spell, if it is one of the grid. -/
theorem read_eq_ok_iff {letters : List Char} {n : Nat} : read letters = .ok n ↔
    letters ≠ [] ∧ (∀ c ∈ letters, c.isAlpha = true) ∧ n ≤ limit ∧ number letters = n := by
  rw [read]
  by_cases hempty : letters = []
  · simp [hempty]
  · rw [if_neg (by simpa using hempty), readFrom_eq_ok_iff (Nat.zero_le _), and_iff_right hempty]
    rfl

/-- The place of a letter in the alphabet, and the code of the capital letter. -/
theorem exists_place {c : Char} (h : c.isAlpha = true) :
    ∃ d < 26, letterValue c = d + 1 ∧ c.toUpper.toNat = d + 65 := by
  have hupper : c.toUpper.isUpper = true ∧ letterValue c = c.toUpper.toNat - 64 := by
    rw [letterValue]
    rcases toUpper_cases h with ⟨hupper, hsame⟩ | ⟨hlower, hupper, hplace⟩
    · rw [if_pos hupper, hsame]
      exact ⟨hupper, rfl⟩
    · rw [if_neg (Bool.eq_false_iff.1 hlower)]
      exact ⟨hupper, by omega⟩
  have hrange := isUpper_iff.1 hupper.1
  exact ⟨c.toUpper.toNat - 65, by omega, by omega, by omega⟩

/-- The number that letters spell is written in the same capital letters. -/
theorem letters_number {run : List Char} (h : ∀ c ∈ run, c.isAlpha = true) :
    letters (number run) = run.map Char.toUpper := by
  -- The last letter is written last, so the induction is from the end.
  induction run using List.reverseRecOn with
  | nil => simp [number, letters]
  | append_singleton run c ih =>
      rcases exists_place (h c (by simp)) with ⟨d, hd, hvalue, hcode⟩
      have hletter : letter d = c.toUpper := by
        rw [letter, ← hcode, Char.ofNat_toNat]
      have hrun := ih fun x hx => h x (List.mem_append_left _ hx)
      have hlast : number (run ++ [c]) = (number run * 26 + d) + 1 := by
        rw [number_append_singleton, hvalue]
        rfl
      have hdiv : (number run * 26 + d) / 26 = number run := by omega
      have hmod : (number run * 26 + d) % 26 = d := by omega
      rw [hlast, letters_succ, hdiv, hmod, hrun, hletter, List.map_append, List.map_singleton]

/-- Small letters count as capital letters do. -/
theorem letterValue_toUpper {c : Char} (h : c.isAlpha = true) :
    letterValue c.toUpper = letterValue c := by
  rcases toUpper_cases h with ⟨_, hsame⟩ | ⟨hlower, hupper, hplace⟩
  · rw [hsame]
  · rw [letterValue, letterValue, if_pos hupper, if_neg (Bool.eq_false_iff.1 hlower)]
    omega


theorem readFrom_map_toUpper {text text' letters : List Char} {number n : Nat}
    (h : readFrom text number letters = .ok n) :
    readFrom text' number (letters.map Char.toUpper) = .ok n := by
  induction letters generalizing number with
  | nil => exact h
  | cons c rest ih =>
      rw [readFrom] at h
      by_cases halpha : c.isAlpha = true
      · rw [if_pos halpha] at h
        rw [List.map_cons, readFrom, if_pos ((isAlpha_toUpper c).trans halpha),
          letterValue_toUpper halpha]
        by_cases hlimit : number * 26 + letterValue c ≤ limit
        · rw [if_pos hlimit] at h ⊢
          exact ih h
        · rw [if_neg hlimit] at h
          cases h
      · rw [if_neg halpha] at h
        cases h

/-- A column in small letters is read as the one in capital letters. -/
theorem read_map_toUpper {letters : List Char} {n : Nat} (h : read letters = .ok n) :
    read (letters.map Char.toUpper) = .ok n := by
  cases letters with
  | nil => cases h
  | cons c rest => exact readFrom_map_toUpper h

end Column

namespace Address

variable {word : List Char} {a : Address}

-- The form of an address: letters, then digits, at least one of each.
theorem letters_digits_of_ofChars? (h : ofChars? word = some a) :
    word.takeWhile Char.isAlpha ≠ [] ∧ word.dropWhile Char.isAlpha ≠ [] ∧
      ∀ c ∈ word.dropWhile Char.isAlpha, c.isDigit = true := by
  unfold ofChars? ofChars at h
  by_cases hempty : ((word.takeWhile Char.isAlpha).isEmpty ||
      (word.dropWhile Char.isAlpha).isEmpty) = true
  · simp only [hempty, if_true] at h
    cases h
  · by_cases hdigits : (word.dropWhile Char.isAlpha).all Char.isDigit = true
    · rw [Bool.or_eq_true, not_or, List.isEmpty_iff, List.isEmpty_iff] at hempty
      exact ⟨hempty.1, hempty.2, List.all_eq_true.1 hdigits⟩
    · simp only [Bool.eq_false_iff.2 hempty, Bool.eq_false_iff.2 hdigits, Bool.false_eq_true,
        if_false] at h
      cases h

/-- An address starts with a letter. -/
theorem isAlpha_head_of_ofChars? (h : ofChars? word = some a) :
    ∀ c ∈ word.head?, c.isAlpha = true := by
  intro c hc
  cases word with
  | nil => cases hc
  | cons d x =>
      cases hc
      by_cases halpha : c.isAlpha = true
      · exact halpha
      · exact absurd (List.takeWhile_cons_of_neg halpha) (letters_digits_of_ofChars? h).1

/-- An address is made of letters and digits. -/
theorem isAlphanum_of_ofChars? (h : ofChars? word = some a) : ∀ c ∈ word, c.isAlphanum = true := by
  intro c hc
  -- Its letters and its digits are all there is to it.
  rw [← List.takeWhile_append_dropWhile (p := Char.isAlpha) (l := word), List.mem_append] at hc
  rcases hc with hc | hc
  · exact isAlphanum_of_isAlpha (List.mem_takeWhile_imp hc)
  · exact isAlphanum_of_isDigit ((letters_digits_of_ofChars? h).2.2 c hc)

/-- An address has a digit. -/
theorem any_isDigit_of_ofChars? (h : ofChars? word = some a) : word.any Char.isDigit = true := by
  rcases letters_digits_of_ofChars? h with ⟨_, hne, hdigits⟩
  rcases List.exists_mem_of_ne_nil _ hne with ⟨c, hc⟩
  exact List.any_eq_true.2 ⟨c, (List.dropWhile_sublist _).subset hc, hdigits c hc⟩

-- Without a digit or without a letter a word is no address.
theorem ofChars?_of_letters (h : ∀ c ∈ word, c.isAlpha = true) : ofChars? word = none := by
  refine Option.eq_none_iff_forall_ne_some.2 fun a ha => ?_
  rcases List.any_eq_true.1 (any_isDigit_of_ofChars? ha) with ⟨c, hc, hdigit⟩
  rw [not_isDigit_of_isAlpha (h c hc)] at hdigit
  cases hdigit

/-- Digits alone are no address. -/
theorem ofChars?_of_digits (h : ∀ c ∈ word, c.isDigit = true) : ofChars? word = none := by
  refine Option.eq_none_iff_forall_ne_some.2 fun a ha => ?_
  cases word with
  | nil => exact (letters_digits_of_ofChars? ha).1 rfl
  | cons c x =>
      have halpha := isAlpha_head_of_ofChars? ha c rfl
      rw [not_isAlpha_of_isDigit (h c List.mem_cons_self)] at halpha
      cases halpha

theorem readColumn_eq_ok_iff {letters : List Char}
    {col : { col : Nat // col < Column.limit }} :
    readColumn letters = .ok col ↔ Column.read letters = .ok (col.1 + 1) := by
  unfold readColumn
  split
  · rename_i e he
    rw [he]
    simp only [reduceCtorEq]
  · rename_i number hnumber
    have hpos := Column.read_bounds hnumber
    rw [Except.ok.injEq, Subtype.ext_iff]
    constructor
    · intro hcol
      rw [hnumber, ← hcol, Nat.sub_add_cancel hpos.1]
    · intro hread
      rw [hnumber, Except.ok.injEq] at hread
      exact Nat.sub_eq_of_eq_add hread

theorem readRow_eq_ok_iff {whole digits : List Char}
    {row : { row : Nat // row < Column.limit }} :
    readRow whole digits = .ok row ↔ Decimal.value digits = row.1 + 1 := by
  unfold readRow
  rcases row with ⟨n, hn⟩
  split
  · rename_i hvalue
    rw [hvalue]
    simp only [reduceCtorEq, (Nat.succ_ne_zero n).symm]
  · rename_i m hvalue
    rw [hvalue]
    by_cases hm : m < Column.limit
    · rw [dif_pos hm, Except.ok.injEq, Subtype.mk.injEq, Nat.succ_inj]
    · rw [dif_neg hm]
      simp only [reduceCtorEq, false_iff]
      omega

/-- What it takes to name an address: letters that spell its column, and digits for its row. -/
theorem ofChars?_eq_some_iff : ofChars? word = some a ↔
    Column.read (word.takeWhile Char.isAlpha) = .ok (a.col + 1) ∧
      (∀ c ∈ word.dropWhile Char.isAlpha, c.isDigit = true) ∧
        Decimal.value (word.dropWhile Char.isAlpha) = a.row + 1 := by
  constructor
  · intro h
    rcases letters_digits_of_ofChars? h with ⟨hletters, hdigits, hall⟩
    rw [ofChars?, toOption_eq_some_iff] at h
    simp only [ofChars, List.isEmpty_eq_false_iff.2 hletters, List.isEmpty_eq_false_iff.2 hdigits,
      List.all_eq_true.2 hall, Bool.or_false, Bool.false_eq_true, if_false, if_true] at h
    rcases bind_eq_ok_iff.1 h with ⟨col, hcol, h⟩
    rcases bind_eq_ok_iff.1 h with ⟨row, hrow, h⟩
    cases h
    exact ⟨readColumn_eq_ok_iff.1 hcol, hall, readRow_eq_ok_iff.1 hrow⟩
  · -- No letters would be no column and no digits no row, so both checks for emptiness pass.
    rintro ⟨hcol, hall, hrow⟩
    have hletters : (word.takeWhile Char.isAlpha).isEmpty = false := by
      rw [List.isEmpty_eq_false_iff]
      intro hnil
      rw [hnil] at hcol
      cases hcol
    have hdigits : (word.dropWhile Char.isAlpha).isEmpty = false := by
      rw [List.isEmpty_eq_false_iff]
      intro hnil
      rw [hnil] at hrow
      cases hrow
    rw [ofChars?, toOption_eq_some_iff]
    simp only [ofChars, hletters, hdigits, List.all_eq_true.2 hall, Bool.or_false,
      Bool.false_eq_true, if_false, if_true]
    exact bind_eq_ok_iff.2 ⟨⟨a.col, a.col_lt⟩, readColumn_eq_ok_iff.2 hcol,
      bind_eq_ok_iff.2 ⟨⟨a.row, a.row_lt⟩, readRow_eq_ok_iff.2 hrow, rfl⟩⟩

/-- Capital letters name the same address. -/
theorem ofChars?_map_toUpper (h : ofChars? word = some a) :
    ofChars? (word.map Char.toUpper) = some a := by
  rcases ofChars?_eq_some_iff.1 h with ⟨hcol, hdigits, hrow⟩
  -- The letters end at the same place, and the digits behind them stay.
  have hsame : Char.isAlpha ∘ Char.toUpper = Char.isAlpha := funext isAlpha_toUpper
  have hrest : (word.dropWhile Char.isAlpha).map Char.toUpper = word.dropWhile Char.isAlpha :=
    (List.map_congr_left fun c hc => toUpper_of_isDigit (hdigits c hc)).trans (List.map_id _)
  rw [ofChars?_eq_some_iff, List.takeWhile_map, List.dropWhile_map, hsame, hrest]
  exact ⟨Column.read_map_toUpper hcol, hdigits, hrow⟩

/-- An address that was read is written in capital letters and without zeros in front of the row
    number. -/
theorem chars_of_ofChars? (h : ofChars? word = some a) :
    a.chars = (word.takeWhile Char.isAlpha).map Char.toUpper ++
      (word.dropWhile Char.isAlpha).dropWhile (· = '0') := by
  rcases ofChars?_eq_some_iff.1 h with ⟨hcol, hdigits, hrow⟩
  rcases Column.read_eq_ok_iff.1 hcol with ⟨_, hletters, _, hnumber⟩
  rw [chars, ← hnumber, ← hrow, Column.letters_number hletters,
    Decimal.digits_value hdigits (by omega)]

end Address

end Worksheet
