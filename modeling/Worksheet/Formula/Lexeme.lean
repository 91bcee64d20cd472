import Worksheet.Formula.Token
import Worksheet.Text.Blank

/-!
# Lexemes

The text of a formula behind its equals sign is cut into lexemes from left to right, each as long as
its kind allows. Cutting never fails: what has no place in a formula becomes a lexeme too, and is
refused when lexemes are turned into tokens.

Runs of letters and digits that start with a letter are words. A word with a digit takes a colon
behind it and the run behind that along, whatever the run is. The name of a function counts as one
only if the next character that is not blank opens a parenthesis.

## Main definitions

* `Lexeme`: A piece of the text of a formula.
* `Lexeme.chars`: The text of a lexeme.
* `Lexeme.scan`: The first lexeme of a text, and what follows it.
* `lexemes`: All lexemes of a text.

## Theorems

* `Lexeme.chars_append_scan`: A lexeme and what follows it make up the text.
* `flatMap_chars_lexemes`: Joining all lexemes gives the text back.
-/

namespace Worksheet

/-- A piece of the text of a formula. -/
inductive Lexeme where
  /-- A blank character. -/
  | blank (c : Char)
  /-- A comma. -/
  | comma
  /-- The name of a function that is called. -/
  | call (f : Aggregate) (spelling : List Char)
  /-- A run of letters and digits that starts with a letter. -/
  | word (run : List Char)
  /-- Two runs of letters and digits with a colon between them. -/
  | pair (first second : List Char)
  /-- An operator. -/
  | operator (op : Operator)
  /-- An opening parenthesis. -/
  | opening
  /-- A closing parenthesis. -/
  | closing
  /-- A number: the digits before the point, those behind it if there is one, and whether a percent
      sign follows. -/
  | literal (whole : List Char) (fraction : Option (List Char)) (percent : Bool)
  /-- A number that a second point follows. -/
  | twoPoints (whole fraction : List Char)
  /-- Any other character. -/
  | stray (c : Char)

namespace Lexeme

/-- The text of a number without the percent sign. -/
def literalChars (whole : List Char) : Option (List Char) → List Char
  | none => whole
  | some fraction => whole ++ '.' :: fraction

/-- The text of a lexeme. -/
def chars : Lexeme → List Char
  | blank c => [c]
  | comma => [',']
  | call _ spelling => spelling
  | word run => run
  | pair first second => first ++ ':' :: second
  | operator op => [op.char]
  | opening => ['(']
  | closing => [')']
  | literal whole fraction percent =>
    literalChars whole fraction ++ if percent then ['%'] else []
  | twoPoints whole fraction => whole ++ '.' :: fraction ++ ['.']
  | stray c => [c]

/-- The function whose call starts a text: its name, then a parenthesis after any blanks. -/
def called? (cs : List Char) : Option Aggregate :=
  Aggregate.all.find? fun f =>
    f.isNamed (cs.take f.name.length)
      && (Text.trimStart (cs.drop f.name.length)).head? == some '('

/-- The word at the start of a text that starts with a letter, with its partner if it has one. -/
def scanWord (cs : List Char) : Lexeme × List Char :=
  let run := cs.takeWhile Char.isAlphanum
  match cs.dropWhile Char.isAlphanum with
  | ':' :: rest =>
    if run.any Char.isDigit then
      (pair run (rest.takeWhile Char.isAlphanum), rest.dropWhile Char.isAlphanum)
    else
      (word run, ':' :: rest)
  | rest => (word run, rest)

/-- The number at the start of a text that starts with a digit or a point. -/
def scanNumber (cs : List Char) : Lexeme × List Char :=
  let whole := cs.takeWhile Char.isDigit
  match cs.dropWhile Char.isDigit with
  | '.' :: behind =>
    let fraction := behind.takeWhile Char.isDigit
    match behind.dropWhile Char.isDigit with
    | '.' :: rest => (twoPoints whole fraction, rest)
    | '%' :: rest => (literal whole (some fraction) true, rest)
    | rest => (literal whole (some fraction) false, rest)
  | '%' :: rest => (literal whole none true, rest)
  | rest => (literal whole none false, rest)

/-- The lexeme of a character that stands for itself. -/
def ofChar (c : Char) : Lexeme :=
  match Operator.ofChar? c with
  | some op => operator op
  | none =>
    if c = '(' then opening else if c = ')' then closing else if c = ',' then comma else stray c

/-- The first lexeme of the text `c :: cs`, and what follows it. -/
def scan (c : Char) (cs : List Char) : Lexeme × List Char :=
  if Text.isBlank c then (blank c, cs)
  else
    match called? (c :: cs) with
    | some f => (call f ((c :: cs).take f.name.length), (c :: cs).drop f.name.length)
    | none =>
      if c.isAlpha then scanWord (c :: cs)
      else if c.isDigit || c = '.' then scanNumber (c :: cs)
      else (ofChar c, cs)

theorem chars_append_scanWord (cs : List Char) :
    (scanWord cs).1.chars ++ (scanWord cs).2 = cs := by
  have h := List.takeWhile_append_dropWhile (p := Char.isAlphanum) (l := cs)
  rw [scanWord]
  split
  · rename_i rest hrest
    rw [hrest] at h
    split
    · simp only [chars, List.append_assoc, List.cons_append, List.takeWhile_append_dropWhile]
      exact h
    · exact h
  · exact h

theorem chars_append_scanNumber (cs : List Char) :
    (scanNumber cs).1.chars ++ (scanNumber cs).2 = cs := by
  -- The digits in front and what is behind them, then the same again behind a point.
  have h := List.takeWhile_append_dropWhile (p := Char.isDigit) (l := cs)
  rw [scanNumber]
  split
  · rename_i behind hbehind
    rw [hbehind] at h
    have h2 := List.takeWhile_append_dropWhile (p := Char.isDigit) (l := behind)
    rw [← h2] at h
    split
    · rename_i rest hrest
      rw [hrest] at h
      simpa [chars] using h
    · rename_i rest hrest
      rw [hrest] at h
      simpa [chars, literalChars] using h
    · simpa [chars, literalChars] using h
  · rename_i rest hrest
    rw [hrest] at h
    simpa [chars, literalChars] using h
  · simp [chars, literalChars]

theorem chars_ofChar (c : Char) : (ofChar c).chars = [c] := by
  rw [ofChar]
  split
  · rename_i op hop
    rw [chars, Operator.char_of_ofChar? hop]
  · split
    · rename_i h
      rw [h]
      rfl
    · split
      · rename_i h
        rw [h]
        rfl
      · split
        · rename_i h
          rw [h]
          rfl
        · rfl

theorem chars_append_scan (c : Char) (cs : List Char) :
    (scan c cs).1.chars ++ (scan c cs).2 = c :: cs := by
  rw [scan]
  split
  · rfl
  · split
    · exact List.take_append_drop _ _
    · split
      · exact chars_append_scanWord _
      · split
        · exact chars_append_scanNumber _
        · rw [chars_ofChar]
          rfl

theorem name_length_pos (f : Aggregate) : 0 < f.name.length := by
  cases f <;> decide

theorem length_scanWord {c : Char} (cs : List Char) (h : c.isAlpha = true) :
    (scanWord (c :: cs)).2.length ≤ cs.length := by
  have hc : c.isAlphanum = true := by
    rw [Char.isAlphanum, h, Bool.true_or]
  have hle := (List.dropWhile_sublist (l := cs) Char.isAlphanum).length_le
  rw [scanWord, List.dropWhile_cons_of_pos hc]
  split
  · rename_i rest hrest
    rw [hrest, List.length_cons] at hle
    have := (List.dropWhile_sublist (l := rest) Char.isAlphanum).length_le
    split
    · simp only
      omega
    · simpa using hle
  · exact hle

theorem length_scanNumber {c : Char} (cs : List Char) (h : (c.isDigit || c = '.') = true) :
    (scanNumber (c :: cs)).2.length ≤ cs.length := by
  have hdrop : ∀ rest : List Char, (rest.dropWhile Char.isDigit).length ≤ rest.length :=
    fun rest => (List.dropWhile_sublist (l := rest) Char.isDigit).length_le
  -- Either a digit is consumed first, or the point is.
  have hfirst : ((c :: cs).dropWhile Char.isDigit).length ≤ cs.length ∨
      ∃ behind, (c :: cs).dropWhile Char.isDigit = '.' :: behind ∧ behind.length ≤ cs.length := by
    by_cases hc : c.isDigit = true
    · left
      rw [List.dropWhile_cons_of_pos hc]
      exact hdrop cs
    · right
      rw [List.dropWhile_cons_of_neg hc]
      simp only [hc, Bool.false_or, decide_eq_true_eq] at h
      exact ⟨cs, by rw [h], Nat.le_refl _⟩
  rw [scanNumber]
  split
  · rename_i behind hbehind
    have hle : behind.length ≤ cs.length := by
      rcases hfirst with hle | ⟨b, hb, hle⟩
      · rw [hbehind, List.length_cons] at hle
        omega
      · rw [hbehind] at hb
        cases hb
        exact hle
    have := hdrop behind
    split
    · rename_i rest hrest
      rw [hrest, List.length_cons] at this
      simp only
      omega
    · rename_i rest hrest
      rw [hrest, List.length_cons] at this
      simp only
      omega
    · simp only
      omega
  · rename_i rest hrest
    rcases hfirst with hle | ⟨b, hb, _⟩
    · rw [hrest, List.length_cons] at hle
      simp only
      omega
    · rw [hrest] at hb
      cases hb
  · rename_i hne _
    rcases hfirst with hle | ⟨b, hb, _⟩
    · exact hle
    · exact absurd hb (hne b)

theorem length_scan (c : Char) (cs : List Char) : (scan c cs).2.length ≤ cs.length := by
  rw [scan]
  split
  · exact Nat.le_refl _
  · split
    · rename_i f _
      have := name_length_pos f
      simp only [List.length_drop, List.length_cons]
      omega
    · split
      · rename_i h
        exact length_scanWord cs h
      · split
        · rename_i h
          exact length_scanNumber cs h
        · exact Nat.le_refl _

end Lexeme

/-- All lexemes of a text, from left to right. -/
def lexemes : List Char → List Lexeme
  | [] => []
  | c :: cs => (Lexeme.scan c cs).1 :: lexemes (Lexeme.scan c cs).2
termination_by cs => cs.length
decreasing_by
  have := Lexeme.length_scan c cs
  simp only [List.length_cons]
  omega

theorem flatMap_chars_lexemes (cs : List Char) : (lexemes cs).flatMap Lexeme.chars = cs := by
  fun_induction lexemes cs with
  | case1 => rfl
  | case2 c cs ih => rw [List.flatMap_cons, ih, Lexeme.chars_append_scan]

end Worksheet
