/-!
# Text as bytes

Text in files is encoded as UTF-8. Every text has one encoding; bytes that are the encoding of no
text are refused, and what is reported then is how many bytes in front are well-formed.

## Main definitions

* `Text.Bytes`: A sequence of bytes.
* `Text.encode`: The encoding of a text.
* `Text.decode`: The text that bytes encode, or the length of their well-formed beginning.
* `Text.byteOrderMark`: The three bytes that may precede a text in a file.

## Theorems

* `Text.decode_encode`: Decoding gives back the text.
* `Text.decode_eq_ok_iff`: Bytes are decoded exactly if they are the encoding of a text.
-/

namespace Worksheet

namespace Text

/-- A sequence of bytes. -/
abbrev Bytes := List UInt8

/-- The encoding of a text. -/
def encode (text : String) : Bytes := text.toList.flatMap String.utf8EncodeChar

/-- The index of the first byte from `i` on at which no character can be read, or the size. -/
def validLength (bytes : ByteArray) (i : Nat) : Nat :=
  if i < bytes.size then
    match bytes.utf8DecodeChar? i with
    | some c => validLength bytes (i + c.utf8Size)
    | none => i
  else
    bytes.size
termination_by bytes.size - i
decreasing_by
  have := c.utf8Size_pos
  omega

/-- The text that bytes encode, or the length of their well-formed beginning. -/
def decode (bytes : Bytes) : Except Nat String :=
  match String.fromUTF8? bytes.toByteArray with
  | some text => .ok text
  | none => .error (validLength bytes.toByteArray 0)

/-- The encoding of the character that may precede a text in a file and is no part of it. -/
def byteOrderMark : Bytes := [0xEF, 0xBB, 0xBF]

theorem toByteArray_encode (text : String) : (encode text).toByteArray = text.toByteArray := by
  have h : (String.ofList text.toList).toByteArray = text.toList.utf8Encode :=
    String.toByteArray_ofList
  rw [String.ofList_toList] at h
  exact h.symm

theorem encode_append (s t : String) : encode (s ++ t) = encode s ++ encode t := by
  rw [encode, String.toList_append, List.flatMap_append, encode, encode]

theorem decode_eq_ok_iff {bytes : Bytes} {text : String} :
    decode bytes = .ok text ↔ bytes = encode text := by
  rw [decode, ← List.toByteArray_inj, toByteArray_encode, String.fromUTF8?]
  split
  · rename_i found hfound
    split at hfound
    · cases hfound
      rw [Except.ok.injEq, ← String.toByteArray_inj]
      rfl
    · cases hfound
  · rename_i hnone
    split at hnone
    · cases hnone
    · rename_i hinvalid
      constructor
      · intro h
        cases h
      · -- The bytes of a text are always valid.
        intro h
        exact absurd (h ▸ text.isValidUTF8) hinvalid

theorem decode_encode (text : String) : decode (encode text) = .ok text :=
  decode_eq_ok_iff.2 rfl

end Text

end Worksheet
