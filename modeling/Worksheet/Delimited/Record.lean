import Worksheet.Delimited.Dialect

/-!
# Reading records

Records are read byte by byte. A quote opens a quoted field only at the very start of the field. In
a quoted field a quote is either the first of two, which stand for one, or closes the quotes; what
follows a closing quote up to the next delimiter still belongs to the field. Any text can be read
that way, and the end of the input ends whatever was being read.

A line without any byte is no record. What ends a line is a single byte, so the line feed of a
carriage return and a line feed counts as the first byte of what follows.

## Main definitions

* `Place`: Where reading stands within a record.
* `Step`, `Dialect.step`: What the next byte does.
* `Dialect.fields`: The fields of a record, and the input behind it.
* `Record`: The fields of a record, with the input from where it was read.
* `Dialect.records`: The records of an input.
* `Dialect.document`: The same for an input that may start with a byte order mark.

## Theorems

* `Dialect.length_fields_lt`: Reading a record uses up some of the input.
-/

namespace Worksheet

namespace Delimited

open Text (Bytes)

/-- Where reading stands within a record. -/
inductive Place where
  /-- At the start of a field. -/
  | start
  /-- In a field that is not quoted, or behind its closing quote. -/
  | plain
  /-- In a quoted field. -/
  | quoted
  /-- Behind a quote in a quoted field, which may be closed by it. -/
  | afterQuote
  deriving DecidableEq, Repr

/-- What a byte does to the record being read. -/
inductive Step where
  /-- It belongs to the field. -/
  | take (next : Place)
  /-- It is a quote that does not belong to the field. -/
  | skip (next : Place)
  /-- It ends the field. -/
  | nextField
  /-- It ends the field and the record. -/
  | endRecord
  deriving DecidableEq, Repr

namespace Dialect

/-- What a byte outside quotes does, if no field can be quoted from there on. -/
def stepOutside (d : Dialect) (b : UInt8) : Step :=
  if b = d.delimiter then .nextField
  else if isLineBreak b then .endRecord
  else .take .plain

/-- What a byte does. -/
def step (d : Dialect) (place : Place) (b : UInt8) : Step :=
  match place with
  | .start => if b = d.quote then .skip .quoted else d.stepOutside b
  | .plain => d.stepOutside b
  | .quoted => if b = d.quote then .skip .afterQuote else .take .quoted
  | .afterQuote => if b = d.quote then .take .quoted else d.stepOutside b

/-- Fields with a byte put in front of the first. -/
def consByte (b : UInt8) : List Bytes → List Bytes
  | [] => [[b]]
  | field :: rest => (b :: field) :: rest

/-- The rest of the field being read and the fields after it, and the input behind the record. -/
def fields (d : Dialect) (place : Place) : Bytes → List Bytes × Bytes
  | [] => ([[]], [])
  | b :: input =>
    match d.step place b with
    | .take next => (d.fields next input).map (consByte b) id
    | .skip next => d.fields next input
    | .nextField => (d.fields .start input).map ([] :: ·) id
    | .endRecord => ([[]], input)

theorem length_fields_le (d : Dialect) (place : Place) (input : Bytes) :
    (d.fields place input).2.length ≤ input.length := by
  induction input generalizing place with
  | nil => exact Nat.le_refl _
  | cons b rest ih =>
    rw [fields]
    split
    · exact Nat.le_trans (ih _) (Nat.le_succ _)
    · exact Nat.le_trans (ih _) (Nat.le_succ _)
    · exact Nat.le_trans (ih _) (Nat.le_succ _)
    · exact Nat.le_succ _

theorem length_fields_lt (d : Dialect) (place : Place) (b : UInt8) (input : Bytes) :
    (d.fields place (b :: input)).2.length < (b :: input).length := by
  rw [fields]
  split
  · exact Nat.lt_succ_of_le (length_fields_le d _ input)
  · exact Nat.lt_succ_of_le (length_fields_le d _ input)
  · exact Nat.lt_succ_of_le (length_fields_le d _ input)
  · exact Nat.lt_succ_self _

end Dialect

/-- The fields of a record as bytes, with the input from where the record was read. -/
structure Record where
  /-- The fields in order. -/
  fields : List Bytes
  /-- The input from the end of the record before, so with any empty lines in front. -/
  source : Bytes
  deriving DecidableEq, Repr

namespace Dialect

/-- The records of an input. -/
def records (d : Dialect) (input : Bytes) : List Record :=
  match _hinput : input.dropWhile isLineBreak with
  | [] => []
  | b :: body =>
    ⟨(d.fields .start (b :: body)).1, input⟩ :: d.records (d.fields .start (b :: body)).2
termination_by input.length
decreasing_by
  have hle : (input.dropWhile isLineBreak).length ≤ input.length :=
    (List.dropWhile_sublist _).length_le
  rw [_hinput] at hle
  exact Nat.lt_of_lt_of_le (length_fields_lt d .start b body) hle

/-- The records of an input that may start with a byte order mark. -/
def document (d : Dialect) (input : Bytes) : List Record :=
  if Text.byteOrderMark.isPrefixOf input then
    match d.records (input.drop Text.byteOrderMark.length) with
    | [] => []
    | first :: rest => { first with source := input } :: rest
  else
    d.records input

end Dialect

end Delimited

end Worksheet
