/-!
# Decimal digits

Natural numbers as runs of the ten digits. `digits` writes a number without leading zeros and
`value` reads any run, leading zeros included, so several runs have the same value but each number
has one written form.

## Main definitions

* `digitChar`, `digitValue`: A single digit as a character, and back.
* `digits`: The written form of a number.
* `value`: The number that a run of digits denotes.

## Theorems

* `value_append_singleton`: A further digit multiplies by ten and adds.
* `value_digits`: Reading what was written gives the number back.
* `isDigit_of_mem_digits`: The written form holds digits only.
* `digits_ne_nil`: The written form is never empty.
-/

namespace Worksheet

namespace Decimal

/-- The character of a digit below ten. -/
def digitChar (d : Nat) : Char := Char.ofNat (d + 48)

/-- The number that a digit character stands for. -/
def digitValue (c : Char) : Nat := c.toNat - 48

/-- The digits of a number, highest first and without leading zeros. -/
def digits (n : Nat) : List Char :=
  if n < 10 then [digitChar n] else digits (n / 10) ++ [digitChar (n % 10)]

/-- The number that a run of digits denotes; the empty run denotes zero. -/
def value (run : List Char) : Nat := run.foldl (fun n c => n * 10 + digitValue c) 0

theorem digitValue_digitChar (d : Nat) (h : d < 10) : digitValue (digitChar d) = d := by
  match d, h with
  | 0, _ | 1, _ | 2, _ | 3, _ | 4, _ | 5, _ | 6, _ | 7, _ | 8, _ | 9, _ => decide

theorem isDigit_digitChar (d : Nat) (h : d < 10) : (digitChar d).isDigit = true := by
  match d, h with
  | 0, _ | 1, _ | 2, _ | 3, _ | 4, _ | 5, _ | 6, _ | 7, _ | 8, _ | 9, _ => decide

theorem value_append_singleton (run : List Char) (c : Char) :
    value (run ++ [c]) = value run * 10 + digitValue c := by
  rw [value, List.foldl_append]
  rfl

theorem value_digits (n : Nat) : value (digits n) = n := by
  induction n using Nat.strongRecOn with
  | _ n ih =>
    rw [digits]
    split
    · rename_i h
      rw [← List.nil_append [digitChar n], value_append_singleton, digitValue_digitChar n h]
      exact Nat.zero_add n
    · rename_i h
      rw [value_append_singleton, ih (n / 10) (by omega),
        digitValue_digitChar _ (Nat.mod_lt n (by omega))]
      omega

theorem isDigit_of_mem_digits (n : Nat) : ∀ c ∈ digits n, c.isDigit = true := by
  induction n using Nat.strongRecOn with
  | _ n ih =>
    rw [digits]
    split
    · rename_i h
      intro c hc
      rw [List.mem_singleton.1 hc]
      exact isDigit_digitChar n h
    · rename_i h
      intro c hc
      rcases List.mem_append.1 hc with hc | hc
      · exact ih (n / 10) (by omega) c hc
      · rw [List.mem_singleton.1 hc]
        exact isDigit_digitChar _ (Nat.mod_lt n (by omega))

theorem digits_ne_nil (n : Nat) : digits n ≠ [] := by
  rw [digits]
  split
  · exact List.cons_ne_nil _ _
  · exact List.append_ne_nil_of_right_ne_nil _ (List.cons_ne_nil _ _)

end Decimal

end Worksheet
