import Worksheet.Decimal.Layout

/-!
# JSON

Values of the JSON format and their indented text. Elements and fields stand on lines of their own,
two blanks further in than what holds them, and empty arrays and objects stay on one line. Numbers
are written by their shortest decimals: positionally with at least one place as long as they are
neither very large nor very small, and with an exponent otherwise. Of two equally near shortest
decimals the even one is written.

## Main definitions

* `Json`: The values.
* `Json.escape`: The characters written for a character of a text.
* `Json.floatText`: The text of a number.
* `Json.pretty`: The indented text of a value.

## Theorems

* `Json.escape_of_printable`: All but quotes, backslashes and control characters stay as they are.
-/

namespace Worksheet

/-- A JSON value. The fields of an object are written in the given order. -/
inductive Json where
  /-- The value that stands for none. -/
  | null
  /-- A truth value. -/
  | bool (b : Bool)
  /-- A whole number. -/
  | nat (n : Nat)
  /-- A number. -/
  | float (x : Float)
  /-- A text. -/
  | text (s : String)
  /-- A list of values. -/
  | array (elements : List Json)
  /-- A list of named values. -/
  | object (fields : List (String × Json))

namespace Json

/-- Two hexadecimal digits of a number below 256. -/
def hexPair (n : Nat) : List Char := [Nat.digitChar (n / 16), Nat.digitChar (n % 16)]

/-- The characters written for a character of a text. -/
def escape (c : Char) : List Char :=
  if c = '"' then ['\\', '"']
  else if c = '\\' then ['\\', '\\']
  else if c = '\n' then ['\\', 'n']
  else if c = '\r' then ['\\', 'r']
  else if c = '\t' then ['\\', 't']
  else if c = '\x08' then ['\\', 'b']
  else if c = '\x0C' then ['\\', 'f']
  else if c.toNat < 32 then ['\\', 'u', '0', '0'] ++ hexPair c.toNat
  else [c]

/-- A text in quotes. -/
def quoted (s : String) : List Char := '"' :: s.toList.flatMap escape ++ ['"']

/-- The least power of ten of the first digit with which a number is written positionally. -/
def leastPositional : Int := -5

/-- The greatest power of ten of the first digit with which a number is written positionally. -/
def greatestPositional : Int := 15

/-- The text of a decimal. A positional one always has a point. -/
def decimalText (d : Decimal) : List Char :=
  if leastPositional ≤ d.leadingExponent ∧ d.leadingExponent ≤ greatestPositional then
    if 0 ≤ d.exponent then d.positional ++ ['.', '0'] else d.positional
  else
    d.exponential

/-- The text of a number; one that is infinite or not a number is written as null. -/
def floatText (x : Float) : List Char :=
  match Binary.ofFloat? x with
  | none => "null".toList
  | some b => (if b.negative then ['-'] else []) ++ decimalText (Decimal.shortest .even b)

/-- A new line with an indentation. -/
def newLine (depth : Nat) : List Char := '\n' :: List.replicate (2 * depth) ' '

mutual

/-- The indented text of a value inside so many arrays and objects. -/
def prettyAt (depth : Nat) : Json → List Char
  | null => "null".toList
  | bool b => (if b then "true" else "false").toList
  | nat n => Decimal.digits n
  | float x => floatText x
  | text s => quoted s
  | array [] => ['[', ']']
  | array (first :: rest) =>
    '[' :: newLine (depth + 1) ++ prettyAt (depth + 1) first ++ prettyElements (depth + 1) rest
      ++ newLine depth ++ [']']
  | object [] => ['{', '}']
  | object ((name, first) :: rest) =>
    '{' :: newLine (depth + 1) ++ quoted name ++ [':', ' '] ++ prettyAt (depth + 1) first
      ++ prettyFields (depth + 1) rest ++ newLine depth ++ ['}']

/-- The text of the elements of an array after the first. -/
def prettyElements (depth : Nat) : List Json → List Char
  | [] => []
  | next :: rest =>
    ',' :: newLine depth ++ prettyAt depth next ++ prettyElements depth rest

/-- The text of the fields of an object after the first. -/
def prettyFields (depth : Nat) : List (String × Json) → List Char
  | [] => []
  | (name, next) :: rest =>
    ',' :: newLine depth ++ quoted name ++ [':', ' '] ++ prettyAt depth next
      ++ prettyFields depth rest

end

/-- The indented text of a value. -/
def pretty (v : Json) : String := String.ofList (v.prettyAt 0)

theorem escape_of_printable {c : Char} (hquote : c ≠ '"') (hbackslash : c ≠ '\\')
    (hprintable : 32 ≤ c.toNat) : escape c = [c] := by
  have hne : ∀ d : Char, d.toNat < 32 → c ≠ d := by
    rintro d hd rfl
    omega
  simp only [escape, hquote, hbackslash, hne '\n' (by decide), hne '\r' (by decide),
    hne '\t' (by decide), hne '\x08' (by decide), hne '\x0C' (by decide),
    Nat.not_lt.2 hprintable, if_false]

end Json

end Worksheet
