import Worksheet.Decimal.Reading

/-!
# Numbers in displayed text

A displayed number may carry a currency sign, separators and a unit. It is read back by dropping
every character but digits, points and minus signs, and then taking the longest decimal that what is
left starts with.

## Main definitions

* `Numeral`: A written decimal.
* `Numeral.kept`: The characters that matter.
* `Numeral.leading?`: The longest decimal at the start of a text.
* `Numeral.toFloat`: The double nearest to a decimal.
* `readNumber`: The number in a displayed text.

## Theorems

* `Numeral.kept_kept`: Dropping characters twice drops no more.
* `readNumber_congr`: The dropped characters do not matter.
-/

namespace Worksheet

/-- A written decimal: its sign, and the digits before and behind its point. -/
structure Numeral where
  /-- Whether a minus sign stands in front. -/
  negative : Bool
  /-- The digits before the point. -/
  whole : List Char
  /-- The digits behind the point; none if there is no point. -/
  fraction : List Char
  deriving DecidableEq, Repr

namespace Numeral

/-- Whether a character can be part of a decimal. -/
def isKept (c : Char) : Bool := c.isDigit || c = '.' || c = '-'

/-- The characters of a text that can be part of a decimal. -/
def kept (text : List Char) : List Char := text.filter isKept

/-- The written form. -/
def chars (n : Numeral) : List Char :=
  (if n.negative then ['-'] else []) ++ n.whole
    ++ if n.fraction.isEmpty then [] else '.' :: n.fraction

/-- The digits behind a point at the start of a text. -/
def fractionOf : List Char → List Char
  | '.' :: rest => rest.takeWhile Char.isDigit
  | _ => []

/-- The longest decimal at the start of a text without a sign. -/
def unsigned? (negative : Bool) (cs : List Char) : Option Numeral :=
  let whole := cs.takeWhile Char.isDigit
  let fraction := fractionOf (cs.dropWhile Char.isDigit)
  if whole.isEmpty && fraction.isEmpty then none else some ⟨negative, whole, fraction⟩

/-- The longest decimal at the start of a text. -/
def leading? : List Char → Option Numeral
  | '-' :: rest => unsigned? true rest
  | cs => unsigned? false cs

/-- The double nearest to a decimal. -/
def toFloat (n : Numeral) : Float :=
  let magnitude := Decimal.toFloat n.whole n.fraction
  if n.negative then -magnitude else magnitude

theorem kept_kept (text : List Char) : kept (kept text) = kept text := by
  simp only [kept, List.filter_filter, Bool.and_self]

end Numeral

/-- The number in a displayed text, if there is one. -/
def readNumber (text : String) : Option Float :=
  (Numeral.leading? (Numeral.kept text.toList)).map Numeral.toFloat

theorem readNumber_congr {s t : String} (h : Numeral.kept s.toList = Numeral.kept t.toList) :
    readNumber s = readNumber t := by
  rw [readNumber, readNumber, h]

end Worksheet
