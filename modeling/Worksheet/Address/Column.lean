import Worksheet.Address.Error

/-!
# Column letters

Columns are numbered by letters in bijective base 26: `A` to `Z`, then `AA` to `ZZ`, and so on.
There is no digit for zero, so every positive number has exactly one spelling in capital letters.
Numbers count from one here; an index is one less.

## Main definitions

* `Column.limit`: How many columns, and rows, the grid has.
* `Column.letter`, `Column.letterValue`: A single base-26 digit as a capital letter, and back.
* `Column.letters`: The spelling of a number.
* `Column.read`: The number that letters spell, or why they spell none.

## Theorems

* `Column.letters_succ`: The last letter and the letters before it.
* `Column.letterValue_pos`: No letter counts as zero.
* `Column.read_bounds`: What is read is a column of the grid.
-/

namespace Worksheet

namespace Column

/-- The grid has this many columns and as many rows, `2 ^ 32`. -/
abbrev limit : Nat := 0x100000000

/-- The capital letter for a digit from 0 to 25. -/
def letter (d : Nat) : Char := Char.ofNat (d + 65)

/-- The place of a letter in the alphabet, counted from one; case does not matter. -/
def letterValue (c : Char) : Nat := if c.isUpper then c.toNat - 64 else c.toNat - 96

/-- The spelling of a positive number in bijective base 26; zero has none. -/
def letters : Nat → List Char
  | 0 => []
  | n + 1 => letters (n / 26) ++ [letter (n % 26)]

/-- Read on from the number that the letters so far have spelled. The number is checked after
    each letter, so a run of letters that leaves the grid is refused before any later character is
    seen. -/
def readFrom (text : List Char) (number : Nat) : List Char → Except Address.Error Nat
  | [] => .ok number
  | c :: rest =>
    if c.isAlpha then
      if number * 26 + letterValue c ≤ limit then
        readFrom text (number * 26 + letterValue c) rest
      else
        .error (.columnBeyondGrid (String.ofList text))
    else
      .error (.notLetter c)

/-- The number that letters spell, from 1 to `limit`. -/
def read (text : List Char) : Except Address.Error Nat :=
  if text.isEmpty then .error .noLetters else readFrom text 0 text

theorem letters_succ (n : Nat) : letters (n + 1) = letters (n / 26) ++ [letter (n % 26)] := by
  rw [letters]

theorem isUpper_iff {c : Char} : c.isUpper = true ↔ 65 ≤ c.toNat ∧ c.toNat ≤ 90 := by
  change decide ('A'.val ≤ c.val ∧ c.val ≤ 'Z'.val) = true ↔ _
  rw [decide_eq_true_eq, UInt32.le_iff_toNat_le, UInt32.le_iff_toNat_le]
  exact Iff.rfl

theorem isAlpha_iff {c : Char} : c.isAlpha = true ↔
    65 ≤ c.toNat ∧ c.toNat ≤ 90 ∨ 97 ≤ c.toNat ∧ c.toNat ≤ 122 := by
  change (c.isUpper || decide ('a'.val ≤ c.val) && decide (c.val ≤ 'z'.val)) = true ↔ _
  rw [Bool.or_eq_true, Bool.and_eq_true, isUpper_iff, decide_eq_true_eq, decide_eq_true_eq,
    UInt32.le_iff_toNat_le, UInt32.le_iff_toNat_le]
  exact Iff.rfl

theorem letterValue_pos (c : Char) (h : c.isAlpha = true) : 0 < letterValue c := by
  rw [isAlpha_iff] at h
  simp only [letterValue, isUpper_iff]
  split <;> omega

theorem readFrom_bounds {text : List Char} {n m : Nat} {cs : List Char}
    (h : readFrom text n cs = .ok m) (hn : n ≤ limit) : m ≤ limit ∧ n ≤ m ∧ (cs ≠ [] → 0 < m) := by
  induction cs generalizing n with
  | nil =>
    cases h
    exact ⟨hn, Nat.le_refl _, fun h => absurd rfl h⟩
  | cons c cs ih =>
    rw [readFrom] at h
    split at h
    · rename_i hc
      split at h
      · rename_i hle
        obtain ⟨h1, h2, _⟩ := ih h hle
        have := letterValue_pos c hc
        exact ⟨h1, by omega, fun _ => by omega⟩
      · cases h
    · cases h

theorem read_bounds {text : List Char} {m : Nat} (h : read text = .ok m) :
    0 < m ∧ m ≤ limit := by
  rw [read] at h
  split at h
  · cases h
  · rename_i hne
    obtain ⟨h1, _, h3⟩ := readFrom_bounds h (Nat.zero_le _)
    exact ⟨h3 (by simpa using hne), h1⟩

end Column

end Worksheet
