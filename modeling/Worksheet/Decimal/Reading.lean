import Worksheet.Decimal.Digits

/-!
# Reading decimals

The double nearest to a written decimal, given the digits before and after its point. The digits are
read as one whole number and scaled by a power of ten, and the result is rounded once.

## Main definitions

* `Decimal.toFloat`: The double for the digits before and after the point.
-/

namespace Worksheet

namespace Decimal

/-- The double nearest to the decimal with the given digits before and after its point. -/
def toFloat (whole fraction : List Char) : Float :=
  Float.ofScientific (value (whole ++ fraction)) true fraction.length

end Decimal

end Worksheet
