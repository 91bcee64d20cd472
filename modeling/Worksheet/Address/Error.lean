/-!
# Address errors

Why a text names no cell. A text can have the wrong shape, or have the right shape and lie outside
the grid; the wording of every cause is fixed in `Address.Error.message`.

## Main definitions

* `Address.Error`: The causes.
* `Address.Error.message`: The text shown for a cause.
-/

namespace Worksheet

namespace Address

/-- Why a text names no cell. -/
inductive Error where
  /-- The text does not consist of letters and something after them. -/
  | shape (text : String)
  /-- What follows the letters is not digits only. -/
  | trailing (text : String)
  /-- The row number is zero, where rows count from one. -/
  | rowZero (text : String)
  /-- The row number lies below the last row of the grid. -/
  | rowBeyondGrid (text : String)
  /-- A column was asked for by no letters at all. -/
  | noLetters
  /-- A column was asked for by a text with a character that is no letter. -/
  | notLetter (c : Char)
  /-- The letters name a column right of the last one of the grid. -/
  | columnBeyondGrid (letters : String)
  deriving DecidableEq, Repr

namespace Error

/-- Whether the text has the shape of an address but lies outside the grid. -/
def isBeyondGrid : Error → Bool
  | rowBeyondGrid _ | columnBeyondGrid _ => true
  | _ => false

/-- The first byte of the character's encoding, shown as the character of that number. -/
def leadingByte (c : Char) : Char :=
  Char.ofNat ((String.utf8EncodeChar c).headD 0).toNat

/-- What is wrong, without the kind of error in front. -/
def detail : Error → String
  | shape text => "'" ++ text ++ "' is not letters followed by a row number"
  | trailing text => "unexpected characters after row number in '" ++ text ++ "'"
  | rowZero text => "row 0 in '" ++ text ++ "'"
  | rowBeyondGrid text => "row of '" ++ text ++ "'"
  | noLetters => "no column letters"
  | notLetter c => "'" ++ String.singleton (leadingByte c) ++ "' is not a column letter"
  | columnBeyondGrid letters => "column " ++ letters

/-- The text shown for an error. -/
def message (e : Error) : String :=
  (if e.isBeyondGrid then "Cell address out of bounds: " else "Invalid cell address: ") ++ e.detail

end Error

end Address

end Worksheet
