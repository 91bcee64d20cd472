import Worksheet.Proofs.Address.Reading
import Worksheet.Proofs.Machine.Word

/-!
# Addresses in words

Column and row of a cell fit words of 32 bits, and written they count from one, which takes words of
64 bits. Reading an address never leaves these bounds, however long the text is: the number of the
column is checked against the edge of the grid after each letter, before the next one multiplies it,
and digits that do not fit a word are beyond the grid.

## Main definitions

* `Machine.Position`: The indices of a cell as words.
* `Machine.readFrom`, `Machine.readDigits`: Letters and digits read with words.
* `Machine.read?`: An address read with words.
* `Machine.letters?`, `Machine.chars?`: An address written with words.

## Theorems

* `Machine.read?_eq`: Reading with words never leaves the bounds, and reads what is read without.
* `Machine.chars?_ofAddress`: The same for writing.
-/

namespace Worksheet

theorem Address.col_lt_two_pow (a : Address) : a.col < 2 ^ 32 := a.col_lt

theorem Address.row_lt_two_pow (a : Address) : a.row < 2 ^ 32 := a.row_lt

namespace Machine

/-- The indices of a cell in words. -/
structure Position where
  /-- The column. -/
  col : BitVec 32
  /-- The row. -/
  row : BitVec 32
  deriving DecidableEq

/-- The indices of an address in words. -/
def Position.ofAddress (a : Address) : Position := ⟨BitVec.ofNat 32 a.col, BitVec.ofNat 32 a.row⟩

/-- The number of columns of the grid, and of rows. -/
def limit : BitVec 64 := 0x100000000#64

/-! ## Reading -/

/-- The place of a letter in the alphabet, counted from zero, by the code of the capital letter. -/
def place? (c : Char) : Option (BitVec 64) :=
  (sub? (BitVec.ofNat 8 c.toUpper.toNat) (BitVec.ofNat 8 'A'.toNat)).map (·.setWidth 64)

/-- Read on from the number that the letters so far have spelled. -/
def readFrom (text : List Char) (number : BitVec 64) :
    List Char → Option (Except Address.Error (BitVec 64))
  | [] => some (.ok number)
  | c :: rest =>
    if c.isAlpha then do
      let scaled ← mul? number 26#64
      let place ← place? c
      let before ← add? scaled place
      let next ← add? before 1#64
      if next ≤ limit then readFrom text next rest
      else return .error (.columnBeyondGrid (String.ofList text))
    else return .error (.notLetter c)

/-- The number that letters spell. -/
def readLetters (text : List Char) : Option (Except Address.Error (BitVec 64)) :=
  if text.isEmpty then some (.error .noLetters) else readFrom text 0#64 text

/-- The column index that letters spell. -/
def readColumn (letters : List Char) : Option (Except Address.Error (BitVec 32)) := do
  match ← readLetters letters with
  | .error e => return .error e
  | .ok number =>
    let before ← sub? number 1#64
    let col ← narrow? 32 before
    return .ok col

/-- Read on from the number that the digits so far denote, unless it does not fit a word. -/
def readDigits (number : BitVec 64) : List Char → Option (BitVec 64)
  | [] => some number
  | c :: rest => do
    let scaled ← mul? number 10#64
    let next ← add? scaled (BitVec.ofNat 64 (Decimal.digitValue c))
    readDigits next rest

/-- The row index that digits denote. Here a number that does not fit a word is no failure of the
    arithmetic but one that is noticed and reported. -/
def readRow (whole digits : List Char) : Option (Except Address.Error (BitVec 32)) :=
  match readDigits 0#64 digits with
  | none => some (.error (.rowBeyondGrid (String.ofList whole)))
  | some number =>
    if number = 0#64 then some (.error (.rowZero (String.ofList whole)))
    else if number ≤ limit then do
      let before ← sub? number 1#64
      let row ← narrow? 32 before
      return .ok row
    else some (.error (.rowBeyondGrid (String.ofList whole)))

/-- The position that characters name. -/
def read? (whole : List Char) : Option (Except Address.Error Position) :=
  let letters := whole.takeWhile Char.isAlpha
  let digits := whole.dropWhile Char.isAlpha
  if letters.isEmpty || digits.isEmpty then
    some (.error (.shape (String.ofList whole)))
  else if digits.all Char.isDigit then do
    match ← readColumn letters with
    | .error e => return .error e
    | .ok col =>
      match ← readRow whole digits with
      | .error e => return .error e
      | .ok row => return .ok ⟨col, row⟩
  else
    some (.error (.trailing (String.ofList whole)))

/-- The place of a letter in the alphabet is found without overflow, for small letters and capital
    ones. -/
theorem place?_eq {c : Char} (h : c.isAlpha = true) :
    ∃ d < 26, Column.letterValue c = d + 1 ∧ place? c = some (BitVec.ofNat 64 d) := by
  rcases Column.exists_place h with ⟨d, hd, hvalue, hcode⟩
  have hA : 'A'.toNat = 65 := rfl
  refine ⟨d, hd, hvalue, ?_⟩
  rw [place?, hcode, hA, sub?_ofNat (by omega) (by omega), Option.map_some,
    setWidth_ofNat (by omega), Nat.add_sub_cancel]

-- The number is at most the limit before each letter, so one more letter stays far below the bound.
theorem readFrom_ofNat (text : List Char) {number : ℕ} (h : number ≤ 0x100000000)
    (letters : List Char) : readFrom text (BitVec.ofNat 64 number) letters =
      some ((Column.readFrom text number letters).map (BitVec.ofNat 64)) := by
  induction letters generalizing number with
  | nil => rfl
  | cons c rest ih =>
      rw [readFrom, Column.readFrom]
      by_cases halpha : c.isAlpha = true
      · rcases place?_eq halpha with ⟨d, hd, hvalue, hplace⟩
        -- The three sums are made one after another, each below the bound.
        have hscaled : mul? (BitVec.ofNat 64 number) 26#64 = some (BitVec.ofNat 64 (number * 26)) :=
          mul?_ofNat (by omega) (by omega) (by omega)
        have hbefore : add? (BitVec.ofNat 64 (number * 26)) (BitVec.ofNat 64 d) =
            some (BitVec.ofNat 64 (number * 26 + d)) := add?_ofNat (by omega)
        have hnext : add? (BitVec.ofNat 64 (number * 26 + d)) 1#64 =
            some (BitVec.ofNat 64 (number * 26 + d + 1)) := add?_ofNat (by omega)
        have hlimit : BitVec.ofNat 64 (number * 26 + d + 1) ≤ limit ↔
            number * 26 + d + 1 ≤ 0x100000000 := le_ofNat (by omega) (by omega)
        rw [if_pos halpha, if_pos halpha, hscaled, hplace, hvalue, ← Nat.add_assoc]
        simp only [Option.bind_eq_bind, Option.bind_some, hbefore, hnext, hlimit]
        by_cases hle : number * 26 + d + 1 ≤ 0x100000000
        · rw [if_pos hle, if_pos hle, ih hle]
        · rw [if_neg hle, if_neg hle]
          rfl
      · rw [if_neg halpha, if_neg halpha]
        rfl

/-- Reading letters in words never overflows: the limit is checked while the number is small enough
    for one more step. -/
theorem readLetters_eq (text : List Char) :
    readLetters text = some ((Column.read text).map (BitVec.ofNat 64)) := by
  rw [readLetters, Column.read]
  by_cases hempty : text.isEmpty = true
  · rw [if_pos hempty, if_pos hempty]
    rfl
  · rw [if_neg hempty, if_neg hempty]
    exact readFrom_ofNat text (Nat.zero_le _) text

/-- A column is read in words as it is on numbers. -/
theorem readColumn_eq (letters : List Char) : readColumn letters =
    some ((Address.readColumn letters).map fun col => BitVec.ofNat 32 col.1) := by
  have hread := readLetters_eq letters
  rw [readColumn]
  unfold Address.readColumn
  split
  · rename_i e he
    rw [he] at hread
    rw [hread]
    rfl
  · rename_i number hnumber
    -- A column that is read is at least one, so one can be taken away, and then it fits the
    -- narrower word.
    have hbounds := Column.read_bounds hnumber
    have hlimit : Column.limit = 0x100000000 := rfl
    have hbefore : sub? (BitVec.ofNat 64 number) 1#64 = some (BitVec.ofNat 64 (number - 1)) :=
      sub?_ofNat (by omega) hbounds.1
    have hcol : narrow? 32 (BitVec.ofNat 64 (number - 1)) = some (BitVec.ofNat 32 (number - 1)) :=
      narrow?_ofNat (by omega) (by omega)
    rw [hnumber] at hread
    rw [hread]
    simp only [Except.map, Option.bind_eq_bind, Option.bind_some, hbefore, hcol]
    rfl

/-- The number read so far only grows with more digits. -/
theorem le_foldl_digitValue (number : ℕ) (run : List Char) :
    number ≤ run.foldl (fun n c => n * 10 + Decimal.digitValue c) number := by
  induction run generalizing number with
  | nil => exact Nat.le_refl number
  | cons c rest ih =>
      have hrest := ih (number * 10 + Decimal.digitValue c)
      rw [List.foldl_cons]
      omega

-- A number that does not fit a word makes all later ones too large as well.
theorem readDigits_ofNat {number : ℕ} (h : number < 2 ^ 64) {run : List Char}
    (hrun : ∀ c ∈ run, c.isDigit = true) : readDigits (BitVec.ofNat 64 number) run =
      if run.foldl (fun n c => n * 10 + Decimal.digitValue c) number < 2 ^ 64 then
        some (BitVec.ofNat 64 (run.foldl (fun n c => n * 10 + Decimal.digitValue c) number))
      else none := by
  induction run generalizing number with
  | nil => rw [readDigits, List.foldl_nil, if_pos h]
  | cons c rest ih =>
      have hdigit := (Decimal.digitChar_digitValue (hrun c List.mem_cons_self)).1
      have hle := le_foldl_digitValue (number * 10 + Decimal.digitValue c) rest
      rw [readDigits, List.foldl_cons]
      -- Either step may overflow; then so does the whole number, which is no smaller.
      rw [mul?_eq h (by decide)]
      by_cases hscaled : number * 10 < 2 ^ 64
      · simp only [if_pos hscaled, Option.bind_eq_bind, Option.bind_some]
        rw [add?_eq hscaled (by omega)]
        by_cases hnext : number * 10 + Decimal.digitValue c < 2 ^ 64
        · rw [if_pos hnext]
          exact ih hnext fun d hd => hrun d (List.mem_cons_of_mem c hd)
        · rw [if_neg hnext, if_neg (by omega)]
          rfl
      · rw [if_neg hscaled, if_neg (by omega)]
        rfl

/-- A row is read in words as it is on numbers; an overflow is the same refusal as a row beyond the
    grid. -/
theorem readRow_eq (whole digits : List Char) (h : ∀ c ∈ digits, c.isDigit = true) :
    readRow whole digits =
      some ((Address.readRow whole digits).map fun row => BitVec.ofNat 32 row.1) := by
  have hread := readDigits_ofNat (show 0 < 2 ^ 64 by decide) h
  change readDigits 0#64 digits = if Decimal.value digits < 2 ^ 64 then
    some (BitVec.ofNat 64 (Decimal.value digits)) else none at hread
  have hlimit : Column.limit = 0x100000000 := rfl
  rw [readRow, Address.readRow, hread]
  rcases Decimal.value digits with _ | row
  · rfl
  · by_cases hfits : row + 1 < 2 ^ 64
    · have hzero := ofNat_ne_zero hfits (Nat.succ_pos row)
      -- The check against the edge of the grid is the same one in words.
      have hle : BitVec.ofNat 64 (row + 1) ≤ limit ↔ row < Column.limit := by
        rw [limit, le_ofNat hfits (by decide)]
        exact Iff.rfl
      simp only [if_pos hfits, if_neg hzero, hle]
      by_cases hrow : row < Column.limit
      · have hbefore : sub? (BitVec.ofNat 64 (row + 1)) 1#64 = some (BitVec.ofNat 64 row) :=
          sub?_ofNat hfits (Nat.succ_pos row)
        have hnarrow : narrow? 32 (BitVec.ofNat 64 row) = some (BitVec.ofNat 32 row) :=
          narrow?_ofNat (by omega) (by omega)
        rw [if_pos hrow, dif_pos hrow, hbefore]
        simp only [Option.bind_eq_bind, Option.bind_some, hnarrow]
        rfl
      · rw [if_neg hrow, dif_neg hrow]
        rfl
    · -- What does not fit a word is beyond the grid.
      have hrow : ¬ row < Column.limit := by omega
      simp only [if_neg hfits, dif_neg hrow]
      rfl

/-- Reading with words never leaves the bounds, and reads what is read without. -/
theorem read?_eq (whole : List Char) :
    read? whole = some ((Address.ofChars whole).map Position.ofAddress) := by
  rw [read?, Address.ofChars]
  by_cases hshape : ((whole.takeWhile Char.isAlpha).isEmpty ||
      (whole.dropWhile Char.isAlpha).isEmpty) = true
  · simp only [hshape, if_true]
    rfl
  · by_cases hdigits : (whole.dropWhile Char.isAlpha).all Char.isDigit = true
    · simp only [if_neg hshape, hdigits, if_true, readColumn_eq,
        readRow_eq whole _ (List.all_eq_true.1 hdigits)]
      rcases Address.readColumn (whole.takeWhile Char.isAlpha) with e | col
      · rfl
      · rcases Address.readRow whole (whole.dropWhile Char.isAlpha) with e | row
        · rfl
        · rfl
    · simp only [if_neg hshape, if_neg hdigits]
      rfl

/-! ## Writing -/

/-- The spelling of a number in bijective base 26, the last letter first. -/
def letters? (n : BitVec 64) : Option (List Char) :=
  if n = 0#64 then some []
  else
    match _h : sub? n 1#64 with
    | none => none
    | some before => do
      let place ← narrow? 8 (before % 26#64)
      let letter ← add? (BitVec.ofNat 8 'A'.toNat) place
      let first ← letters? (before / 26#64)
      return first ++ [Char.ofNat letter.toNat]
termination_by n.toNat
decreasing_by
  have hbefore := toNat_of_sub? ‹sub? n 1#64 = some before›
  have hpos : n.toNat ≠ 0 := by
    exact fun hzero => absurd (BitVec.eq_of_toNat_eq hzero) ‹¬ n = 0#64›
  rw [BitVec.toNat_udiv, hbefore]
  change (n.toNat - 1) / 26 < n.toNat
  omega

/-- Writing a column in words gives its letters, without overflow. -/
theorem letters?_ofNat {n : ℕ} (h : n < 2 ^ 64) :
    letters? (BitVec.ofNat 64 n) = some (Column.letters n) := by
  induction n using Nat.strongRecOn with
  | _ n ih =>
      rw [letters?]
      cases n with
      | zero =>
          rw [Column.letters]
          rfl
      | succ m =>
          -- The letter is the remainder of one less, and the quotient is below the number.
          have hne := ofNat_ne_zero h (Nat.succ_pos m)
          have hbefore : sub? (BitVec.ofNat 64 (m + 1)) 1#64 = some (BitVec.ofNat 64 m) :=
            sub?_ofNat h (Nat.succ_pos m)
          have hmod : BitVec.ofNat 64 m % 26#64 = BitVec.ofNat 64 (m % 26) :=
            umod_ofNat (by omega) (by omega)
          have hdiv : BitVec.ofNat 64 m / 26#64 = BitVec.ofNat 64 (m / 26) :=
            udiv_ofNat (by omega) (by omega)
          have hplace : narrow? 8 (BitVec.ofNat 64 (m % 26)) = some (BitVec.ofNat 8 (m % 26)) :=
            narrow?_ofNat (by omega) (by omega)
          have hletter : add? (BitVec.ofNat 8 'A'.toNat) (BitVec.ofNat 8 (m % 26)) =
              some (BitVec.ofNat 8 (65 + m % 26)) := add?_ofNat (m := 65) (by omega)
          rw [if_neg hne, Column.letters_succ]
          -- The definition matches on the difference to justify that it ends; only one case is
          -- left.
          split
          · rename_i hnone
            rw [hbefore] at hnone
            cases hnone
          · rename_i before hsome
            rw [hbefore, Option.some.injEq] at hsome
            rw [← hsome, hmod, hdiv, hplace, ih (m / 26) (by omega) (by omega)]
            simp only [Option.bind_eq_bind, Option.bind_some, hletter,
              toNat_ofNat (show 65 + m % 26 < 2 ^ 8 by omega)]
            rw [Column.letter, Nat.add_comm (m % 26)]
            rfl

/-- The characters of the written form of a position. -/
def chars? (p : Position) : Option (List Char) := do
  let number ← add? (p.col.setWidth 64) 1#64
  let letters ← letters? number
  let row ← add? (p.row.setWidth 64) 1#64
  return letters ++ Decimal.digits row.toNat

/-- Writing with words never leaves the bounds, and writes what is written without. -/
theorem chars?_ofAddress (a : Address) : chars? (Position.ofAddress a) = some a.chars := by
  have hcol := a.col_lt_two_pow
  have hrow := a.row_lt_two_pow
  have hnumber : add? ((BitVec.ofNat 32 a.col).setWidth 64) 1#64 =
      some (BitVec.ofNat 64 (a.col + 1)) := by
    rw [setWidth_ofNat hcol, add?_ofNat (by omega)]
  have hcount : add? ((BitVec.ofNat 32 a.row).setWidth 64) 1#64 =
      some (BitVec.ofNat 64 (a.row + 1)) := by
    rw [setWidth_ofNat hrow, add?_ofNat (by omega)]
  rw [chars?, Position.ofAddress]
  simp only [hnumber, hcount, Option.bind_eq_bind, Option.bind_some,
    letters?_ofNat (show a.col + 1 < 2 ^ 64 by omega),
    toNat_ofNat (show a.row + 1 < 2 ^ 64 by omega)]
  rfl

end Machine

end Worksheet
