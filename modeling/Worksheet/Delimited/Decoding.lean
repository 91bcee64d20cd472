import Worksheet.Delimited.Record

/-!
# Records as text

The fields of a record are text, each by itself. If one is not, the error says where: which record
and field, where the record starts in the input, and how much of the field is well-formed.

## Main definitions

* `Position`: Where a record starts in the input.
* `Misencoded`: Where bytes are not the encoding of a text.
* `decodeFields`: The fields of a record as text.
* `Dialect.texts`: The records of an input as text, each by itself.

## Theorems

* `decodeFields_encode`: Encoded fields are read back.
-/

namespace Worksheet

namespace Delimited

open Text (Bytes)

/-- Where a record starts. Records and bytes count from zero and lines from one, and the lines are
    counted in line feeds. -/
structure Position where
  /-- How many records are before it. -/
  record : Nat
  /-- The line it starts in. -/
  line : Nat
  /-- How many bytes are before it. -/
  byte : Nat
  deriving DecidableEq, Repr

/-- The position of a record with a given index, from where on the input is `source`. -/
def Position.ofSource (input source : Bytes) (record : Nat) : Position where
  record := record
  line := 1 + (input.take (input.length - source.length)).count lineFeed
  byte := input.length - source.length

/-- Where bytes are not the encoding of a text. -/
structure Misencoded where
  /-- Where the record starts. -/
  position : Position
  /-- The index of the field. -/
  field : Nat
  /-- How many bytes of the field are well-formed. -/
  offset : Nat
  deriving DecidableEq, Repr

/-- The text shown for the error. -/
def Misencoded.message (e : Misencoded) : String :=
  "CSV parse error: record " ++ Nat.repr e.position.record
    ++ " (line " ++ Nat.repr e.position.line
    ++ ", field: " ++ Nat.repr e.field
    ++ ", byte: " ++ Nat.repr e.position.byte
    ++ "): invalid utf-8: invalid UTF-8 in field " ++ Nat.repr e.field
    ++ " near byte index " ++ Nat.repr e.offset

/-- The fields of a record from an index on as text, or the index of the first that is none and the
    length of its well-formed beginning. -/
def decodeFields (index : Nat) : List Bytes → Except (Nat × Nat) (List String)
  | [] => .ok []
  | field :: rest =>
    match Text.decode field with
    | .error offset => .error (index, offset)
    | .ok text => (decodeFields (index + 1) rest).map (text :: ·)

/-- The records of an input as text, or where one is none. -/
def Dialect.texts (d : Dialect) (input : Bytes) : List (Except Misencoded (List String)) :=
  (d.document input).zipIdx.map fun (r, record) =>
    (decodeFields 0 r.fields).mapError fun (field, offset) =>
      ⟨Position.ofSource input r.source record, field, offset⟩

theorem decodeFields_encode (index : Nat) (texts : List String) :
    decodeFields index (texts.map Text.encode) = .ok texts := by
  induction texts generalizing index with
  | nil => rfl
  | cons text rest ih =>
    rw [List.map_cons, decodeFields, Text.decode_encode]
    simp only [ih, Except.map]

end Delimited

end Worksheet
