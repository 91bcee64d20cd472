import Worksheet.Delimited.Dialect

/-!
# Writing records

A field is enclosed in quotes if it holds a byte that would otherwise not be read as part of it, and
then every quote in it is written twice. A record that would leave its line empty is written as an
empty quoted field, because an empty line is no record.

## Main definitions

* `Dialect.layoutField`: The bytes written for a field.
* `Dialect.layoutRecord`: The bytes written for a record, without the end of its line.
* `Dialect.layout`: The bytes written for a list of records.

## Theorems

* `Dialect.layoutRecord_ne_nil`: No line is left empty.
-/

namespace Worksheet

namespace Delimited

namespace Dialect

open Text (Bytes)

/-- Whether a field with this byte in it has to be quoted. -/
def isSpecial (d : Dialect) (b : UInt8) : Bool := b == d.delimiter || b == d.quote || isLineBreak b

/-- A field in quotes, with every quote in it written twice. -/
def quoted (d : Dialect) (field : Bytes) : Bytes :=
  d.quote :: field.flatMap (fun b => if b = d.quote then [b, b] else [b]) ++ [d.quote]

/-- The bytes written for a field. -/
def layoutField (d : Dialect) (field : Bytes) : Bytes :=
  if field.any d.isSpecial then d.quoted field else field

/-- The bytes written for the fields of a record, which may be none. -/
def layoutFields (d : Dialect) (fields : List Bytes) : Bytes :=
  [d.delimiter].intercalate (fields.map d.layoutField)

/-- The bytes written for a record, without the end of its line. -/
def layoutRecord (d : Dialect) (fields : List Bytes) : Bytes :=
  if (d.layoutFields fields).isEmpty then d.quoted [] else d.layoutFields fields

/-- The bytes written for a list of records, each on a line of its own. -/
def layout (d : Dialect) (lineEnd : LineEnd) (records : List (List Bytes)) : Bytes :=
  records.flatMap fun fields => d.layoutRecord fields ++ lineEnd.bytes

theorem layoutRecord_ne_nil (d : Dialect) (fields : List Bytes) : d.layoutRecord fields ≠ [] := by
  rw [layoutRecord]
  split
  · exact List.cons_ne_nil _ _
  · rename_i h
    intro hnil
    exact h (List.isEmpty_iff.2 hnil)

end Dialect

end Delimited

end Worksheet
