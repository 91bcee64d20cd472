import Worksheet.Text.Utf8

/-!
# Dialects of delimited text

Delimited text holds one record a line, with a delimiter between fields. A field may be enclosed in
quotes, and then delimiters and line breaks in it are part of the field. A dialect fixes the two
bytes this takes; lines may end in three ways.

## Main definitions

* `Dialect`: The delimiter and the quote.
* `LineEnd`: How a line is ended.
* `isLineBreak`: The bytes that end a line outside quotes.
-/

namespace Worksheet

namespace Delimited

/-- The byte between fields and the byte around quoted fields; a comma and a double quote unless
    said otherwise. -/
structure Dialect where
  /-- The byte between two fields of a record. -/
  delimiter : UInt8 := 0x2C
  /-- The byte before and after a quoted field. -/
  quote : UInt8 := 0x22
  deriving DecidableEq, Repr

/-- The line feed. -/
def lineFeed : UInt8 := 0x0A

/-- The carriage return. -/
def carriageReturn : UInt8 := 0x0D

/-- Whether a byte ends a line. -/
def isLineBreak (b : UInt8) : Bool := b == lineFeed || b == carriageReturn

/-- How a line is ended. -/
inductive LineEnd where
  /-- By a line feed. -/
  | lf
  /-- By a carriage return and a line feed. -/
  | crlf
  /-- By a carriage return. -/
  | cr
  deriving DecidableEq, Repr

/-- The bytes at the end of a line. -/
def LineEnd.bytes : LineEnd → Text.Bytes
  | lf => [lineFeed]
  | crlf => [carriageReturn, lineFeed]
  | cr => [carriageReturn]

end Delimited

end Worksheet
