import Mathlib.Data.List.TakeWhile
import Worksheet.Delimited.Decoding
import Worksheet.Delimited.Layout
import Worksheet.Proofs.Attempt

/-!
# Reading what was laid out

A field that was laid out is read back, whatever stands behind it, as long as that ends the field. A
record is read back up to the byte that ends its line. If two bytes end a line, the second is left
over, and it is passed over like an empty line in front of the next record.

The bytes of a dialect are of ASCII, so none of them can be taken for the beginning of a byte order
mark. Only a first field that starts with the character of the mark itself looks like one.

## Main definitions

* `Dialect.Proper`: The bytes of a dialect can be told apart.
* `Dialect.EndsField`: Input in front of which a field ends.

## Theorems

* `Dialect.fields_layoutField`, `Dialect.fields_layoutRecord`: A field and a record are read back.
* `Dialect.records_layout`: All records are read back.
* `Dialect.texts_layout`: Records of text are read back as text.
* `Dialect.ne_nil_of_mem_texts`: No record that is read is without fields.
-/

namespace Worksheet

namespace Delimited

open Text (Bytes)

namespace Dialect

/-- The delimiter and the quote are different bytes of ASCII, and neither ends a line. -/
structure Proper (d : Dialect) : Prop where
  /-- They are different. -/
  apart : d.delimiter ≠ d.quote
  /-- The delimiter does not end a line. -/
  delimiter_inLine : isLineBreak d.delimiter = false
  /-- The quote does not end a line. -/
  quote_inLine : isLineBreak d.quote = false
  /-- The delimiter is one of ASCII. -/
  delimiter_ascii : d.delimiter < 0x80
  /-- The quote is one of ASCII. -/
  quote_ascii : d.quote < 0x80

/-- Input that is empty, or starts with a byte that ends a field. -/
def EndsField (d : Dialect) (rest : Bytes) : Prop :=
  ∀ b ∈ rest.head?, b = d.delimiter ∨ isLineBreak b = true

variable {d : Dialect} {place next : Place} {b : UInt8} {input rest behind field : Bytes}
  {fields more : List Bytes}

section Steps

/-- A byte that is taken becomes the first one of the field that is being read. -/
theorem fields_take (hstep : d.step place b = .take next)
    (h : d.fields next input = (field :: more, behind)) :
    d.fields place (b :: input) = ((b :: field) :: more, behind) := by
  rw [Dialect.fields, hstep]
  dsimp only
  rw [h]
  rfl

/-- A byte that is passed over only changes the place of the reader. -/
theorem fields_skip (hstep : d.step place b = .skip next) :
    d.fields place (b :: input) = d.fields next input := by
  rw [Dialect.fields, hstep]

/-- A delimiter ends the field, with nothing of it left to read. -/
theorem fields_nextField (hstep : d.step place b = .nextField)
    (h : d.fields .start input = (fields, behind)) :
    d.fields place (b :: input) = ([] :: fields, behind) := by
  rw [Dialect.fields, hstep]
  dsimp only
  rw [h]
  rfl

/-- A line break ends the field and the record, and the rest of the input is not looked at. -/
theorem fields_endRecord (hstep : d.step place b = .endRecord) :
    d.fields place (b :: input) = ([[]], input) := by
  rw [Dialect.fields, hstep]

/-- Outside of quotes all places treat a byte alike, unless it is the quote. -/
theorem step_eq_stepOutside (hplace : place ≠ .quoted) (hb : b ≠ d.quote) :
    d.step place b = d.stepOutside b := by
  cases place with
  | start => exact if_neg hb
  | plain => rfl
  | quoted => exact absurd rfl hplace
  | afterQuote => exact if_neg hb

theorem step_start_quote (d : Dialect) : d.step .start d.quote = .skip .quoted := if_pos rfl

theorem step_quoted_quote (d : Dialect) : d.step .quoted d.quote = .skip .afterQuote := if_pos rfl

theorem step_afterQuote_quote (d : Dialect) : d.step .afterQuote d.quote = .take .quoted :=
  if_pos rfl

theorem step_quoted_of_ne (hb : b ≠ d.quote) : d.step .quoted b = .take .quoted := if_neg hb

/-- A line break is no delimiter in a proper dialect, so it ends the record. -/
theorem stepOutside_lineBreak (hd : d.Proper) (hb : isLineBreak b = true) :
    d.stepOutside b = .endRecord := by
  have hne : b ≠ d.delimiter := by
    rintro rfl
    rw [hd.delimiter_inLine] at hb
    cases hb
  rw [stepOutside, if_neg hne, if_pos hb]

/-- A byte that needs no quotes is neither of the marks and no line break. -/
theorem not_special (h : d.isSpecial b = false) :
    b ≠ d.delimiter ∧ b ≠ d.quote ∧ isLineBreak b = false := by
  rw [isSpecial, Bool.or_eq_false_iff, Bool.or_eq_false_iff, beq_eq_false_iff_ne,
    beq_eq_false_iff_ne] at h
  exact ⟨h.1.1, h.1.2, h.2⟩

/-- Such a byte is part of a field wherever it stands. -/
theorem stepOutside_of_not_special (h : d.isSpecial b = false) : d.stepOutside b = .take .plain := by
  rcases not_special h with ⟨hdelimiter, _, hinLine⟩
  rw [stepOutside, if_neg hdelimiter, hinLine]
  rfl

/-- What ends a field is not taken for a quote. -/
theorem ne_quote_of_ends (hd : d.Proper) (hb : b = d.delimiter ∨ isLineBreak b = true) :
    b ≠ d.quote := by
  rcases hb with rfl | hb
  · exact hd.apart
  · rintro rfl
    rw [hd.quote_inLine] at hb
    cases hb

end Steps

-- Where a field ends, it does so behind its closing quote and if it is empty as well.
theorem fields_of_endsField (hd : d.Proper) (hends : d.EndsField rest) (hplace : place ≠ .quoted) :
    d.fields place rest = d.fields .plain rest := by
  cases rest with
  | nil => rfl
  | cons b input =>
      have hb := ne_quote_of_ends hd (hends b rfl)
      rw [Dialect.fields, Dialect.fields, step_eq_stepOutside hplace hb,
        step_eq_stepOutside Place.noConfusion hb]

/-- A field without special bytes is read to its end, where it stands without quotes. -/
theorem fields_plain (hfield : ∀ b ∈ field, d.isSpecial b = false)
    (hrest : d.fields .plain rest = ([] :: more, behind)) :
    d.fields .plain (field ++ rest) = (field :: more, behind) := by
  induction field with
  | nil => exact hrest
  | cons b x ih =>
      exact fields_take (stepOutside_of_not_special (hfield b List.mem_cons_self))
        (ih fun c hc => hfield c (List.mem_cons_of_mem _ hc))

/-- A field in quotes is read to its end, with one quote for two. -/
theorem fields_inQuotes (hrest : d.fields .afterQuote rest = ([] :: more, behind)) (field : Bytes) :
    d.fields .quoted (field.flatMap (fun b => if b = d.quote then [b, b] else [b]) ++
      d.quote :: rest) = (field :: more, behind) := by
  induction field with
  | nil =>
      rw [List.flatMap_nil, List.nil_append, fields_skip d.step_quoted_quote]
      exact hrest
  | cons b x ih =>
      rw [List.flatMap_cons, List.append_assoc]
      by_cases hb : b = d.quote
      · -- The first of two quotes might close the field, but the second belongs to it.
        rw [if_pos hb, hb, List.cons_append, fields_skip d.step_quoted_quote]
        exact fields_take d.step_afterQuote_quote ih
      · rw [if_neg hb]
        exact fields_take (step_quoted_of_ne hb) ih

/-- A field in quotes is read from the start, and behind the last quote goes on what would go on
    behind a plain field. -/
theorem fields_quoted (hd : d.Proper) (hends : d.EndsField rest)
    (hrest : d.fields .plain rest = ([] :: more, behind)) (field : Bytes) :
    d.fields .start (d.quoted field ++ rest) = (field :: more, behind) := by
  have hafter : d.fields .afterQuote rest = ([] :: more, behind) :=
    (fields_of_endsField hd hends Place.noConfusion).trans hrest
  simp only [quoted, List.cons_append, List.append_assoc, List.nil_append]
  rw [fields_skip d.step_start_quote]
  exact fields_inQuotes hafter field

/-- A field that was laid out is read back. -/
theorem fields_layoutField (hd : d.Proper) (hends : d.EndsField rest)
    (hrest : d.fields .plain rest = ([] :: more, behind)) (field : Bytes) :
    d.fields .start (d.layoutField field ++ rest) = (field :: more, behind) := by
  unfold layoutField
  by_cases hspecial : field.any d.isSpecial = true
  · rw [if_pos hspecial]
    exact fields_quoted hd hends hrest field
  · rw [if_neg hspecial]
    have hfield : ∀ b ∈ field, d.isSpecial b = false := fun b hb =>
      Bool.eq_false_iff.2 fun h => hspecial (List.any_eq_true.2 ⟨b, hb, h⟩)
    cases field with
    | nil =>
        rw [List.nil_append, fields_of_endsField hd hends Place.noConfusion]
        exact hrest
    | cons b x =>
        -- The first byte is no quote, so it is read as it would be inside the field.
        have hb := hfield b List.mem_cons_self
        have hstep : d.step .start b = .take .plain :=
          (step_eq_stepOutside Place.noConfusion (not_special hb).2.1).trans
            (stepOutside_of_not_special hb)
        exact fields_take hstep
          (fields_plain (fun c hc => hfield c (List.mem_cons_of_mem _ hc)) hrest)

theorem layoutFields_singleton (field : Bytes) : d.layoutFields [field] = d.layoutField field :=
  List.intercalate_singleton

/-- There is a delimiter between two fields. -/
theorem layoutFields_cons_cons (field next : Bytes) (more : List Bytes) :
    d.layoutFields (field :: next :: more) =
      d.layoutField field ++ d.delimiter :: d.layoutFields (next :: more) := by
  simp only [layoutFields, List.map_cons, List.intercalate_cons_cons, List.append_assoc,
    List.singleton_append]

/-- The fields of a record are read back in front of a line break, which is taken along. -/
theorem fields_layoutFields (hd : d.Proper) (hb : isLineBreak b = true) (input : Bytes)
    (field : Bytes) (more : List Bytes) :
    d.fields .start (d.layoutFields (field :: more) ++ b :: input) = (field :: more, input) := by
  induction more generalizing field with
  | nil =>
      -- The last field ends at the line break, the others at a delimiter.
      rw [layoutFields_singleton]
      refine fields_layoutField hd ?_ (fields_endRecord (stepOutside_lineBreak hd hb)) field
      intro c hc
      cases hc
      exact Or.inr hb
  | cons next more ih =>
      rw [layoutFields_cons_cons, List.append_assoc, List.cons_append]
      refine fields_layoutField hd ?_ (fields_nextField (if_pos rfl) (ih next)) field
      intro c hc
      cases hc
      exact Or.inl rfl

/-- A record that was laid out is read back, up to the byte that ends its line. -/
theorem fields_layoutRecord (hd : d.Proper) (hb : isLineBreak b = true) (input : Bytes)
    (hne : fields ≠ []) :
    d.fields .start (d.layoutRecord fields ++ b :: input) = (fields, input) := by
  rcases List.exists_cons_of_ne_nil hne with ⟨field, more, rfl⟩
  have hread := fields_layoutFields hd hb input field more
  unfold layoutRecord
  by_cases hempty : (d.layoutFields (field :: more)).isEmpty = true
  · -- What leaves its line empty would be read as a single empty field, so that is what it is.
    have hends : d.EndsField (b :: input) := by
      intro c hc
      cases hc
      exact Or.inr hb
    rw [List.isEmpty_iff.1 hempty, List.nil_append,
      fields_of_endsField hd hends Place.noConfusion] at hread
    have hend : d.fields .plain (b :: input) = ([[]], input) :=
      fields_endRecord (stepOutside_lineBreak hd hb)
    rw [if_pos hempty, fields_quoted hd hends hend, ← hread, hend]
  · rw [if_neg hempty]
    exact hread

/-- What a record that was laid out starts with: empty quotes, or its first field and then nothing
    or the delimiter. -/
theorem layoutRecord_cases (d : Dialect) (field : Bytes) (more : List Bytes) :
    d.layoutRecord (field :: more) = d.quoted [] ∨
      ∃ tail, d.layoutRecord (field :: more) = d.layoutField field ++ tail ∧
        ∀ b ∈ tail.head?, b = d.delimiter := by
  unfold layoutRecord
  by_cases hempty : (d.layoutFields (field :: more)).isEmpty = true
  · rw [if_pos hempty]
    exact Or.inl rfl
  · rw [if_neg hempty]
    cases more with
    | nil =>
        rw [layoutFields_singleton]
        exact Or.inr ⟨[], (List.append_nil _).symm, fun b hb => absurd hb (Option.not_mem_none b)⟩
    | cons next more =>
        refine Or.inr ⟨_, layoutFields_cons_cons field next more, fun b hb => ?_⟩
        cases hb
        rfl

-- A field that was laid out is quoted, or nothing in it is special.
theorem layoutField_cases (d : Dialect) (field : Bytes) :
    (d.layoutField field).head? = some d.quote ∨
      (d.layoutField field = field ∧ ∀ b ∈ field, d.isSpecial b = false) := by
  unfold layoutField
  by_cases hspecial : field.any d.isSpecial = true
  · rw [if_pos hspecial]
    exact Or.inl rfl
  · rw [if_neg hspecial]
    exact Or.inr ⟨rfl, fun b hb => Bool.eq_false_iff.2 fun h =>
      hspecial (List.any_eq_true.2 ⟨b, hb, h⟩)⟩

/-- No record that was laid out starts like an empty line. -/
theorem head_layoutRecord (hd : d.Proper) (fields : List Bytes) :
    ∀ b ∈ (d.layoutRecord fields).head?, isLineBreak b = false := by
  intro b hb
  have hquote : some d.quote = some b → isLineBreak b = false := by
    intro h
    cases h
    exact hd.quote_inLine
  cases fields with
  | nil => exact hquote hb
  | cons field more =>
      rcases layoutRecord_cases d field more with hrecord | ⟨tail, hrecord, htail⟩
      · rw [hrecord] at hb
        exact hquote hb
      · rw [hrecord] at hb
        rcases layoutField_cases d field with hhead | ⟨hfield, hinLine⟩
        · rw [List.head?_append, hhead, Option.some_or] at hb
          exact hquote hb
        · rw [hfield] at hb
          cases field with
          | nil =>
              -- An empty first field that is not quoted: the record starts with the delimiter
              -- behind it.
              rw [htail b hb]
              exact hd.delimiter_inLine
          | cons c x =>
              cases hb
              exact (not_special (hinLine b List.mem_cons_self)).2.2

/-- Empty lines are no records. -/
theorem records_of_lineBreaks (h : input.dropWhile isLineBreak = []) : d.records input = [] := by
  rw [records]
  split
  · rfl
  · rename_i hcons
    rw [h] at hcons
    cases hcons

/-- A record starts behind all line breaks in front of it and is read by its fields. -/
theorem records_of_cons {body : Bytes} (h : input.dropWhile isLineBreak = b :: body) :
    d.records input = ⟨(d.fields .start (b :: body)).1, input⟩ ::
      d.records (d.fields .start (b :: body)).2 := by
  rw [records]
  split
  · rename_i hnil
    rw [h] at hnil
    cases hnil
  · rename_i hcons
    rw [h] at hcons
    cases hcons
    rfl

end Dialect

/-- Whatever ends a line, its first byte ends the record and the others are passed over as empty
    lines. -/
theorem LineEnd.exists_bytes (lineEnd : LineEnd) : ∃ b more, lineEnd.bytes = b :: more ∧
    isLineBreak b = true ∧ ∀ c ∈ more, isLineBreak c = true := by
  cases lineEnd with
  | lf | cr => exact ⟨_, [], rfl, by decide, List.forall_mem_nil _⟩
  | crlf =>
      refine ⟨_, [lineFeed], rfl, by decide, fun c hc => ?_⟩
      rw [List.mem_singleton.1 hc]
      rfl

namespace Dialect

variable {d : Dialect} {lineEnd : LineEnd}

/-- Records that were laid out are read back, behind any empty lines. -/
theorem records_layout (hd : d.Proper) (lineEnd : LineEnd) {rows : List (List Bytes)}
    (hrows : ∀ fields ∈ rows, fields ≠ []) {breaks : Bytes}
    (hbreaks : ∀ b ∈ breaks, isLineBreak b = true) :
    (d.records (breaks ++ d.layout lineEnd rows)).map Record.fields = rows := by
  -- Each record leaves what its line ends with behind its first byte in front of the next one.
  induction rows generalizing breaks with
  | nil =>
      rw [layout, List.flatMap_nil, List.append_nil,
        records_of_lineBreaks (List.dropWhile_eq_nil_iff.2 hbreaks)]
      rfl
  | cons fields rows ih =>
      rcases lineEnd.exists_bytes with ⟨e, left, hbytes, he, hleft⟩
      rcases List.exists_cons_of_ne_nil (d.layoutRecord_ne_nil fields) with ⟨b, body, hrecord⟩
      have hread := fields_layoutRecord hd he (left ++ d.layout lineEnd rows)
        (hrows fields List.mem_cons_self)
      have hinput : breaks ++ d.layout lineEnd (fields :: rows) =
          breaks ++ (d.layoutRecord fields ++ e :: (left ++ d.layout lineEnd rows)) := by
        simp only [layout, List.flatMap_cons, hbytes, List.append_assoc, List.cons_append]
      have hb : isLineBreak b = false := head_layoutRecord hd fields b (by rw [hrecord]; rfl)
      rw [hrecord, List.cons_append] at hread hinput
      have hdrop : (breaks ++ b :: (body ++ e :: (left ++ d.layout lineEnd rows))).dropWhile
          isLineBreak = b :: (body ++ e :: (left ++ d.layout lineEnd rows)) := by
        rw [List.dropWhile_append_of_pos hbreaks, List.dropWhile_cons_of_neg]
        exact Bool.eq_false_iff.1 hb
      rw [hinput, records_of_cons hdrop, hread, List.map_cons,
        ih (fun fields hfields => hrows fields (List.mem_cons_of_mem _ hfields)) hleft]

section Mark

/-- The mark does not start with an ASCII character. -/
theorem not_mark_of_ascii {rest : Bytes} (h : ∀ b ∈ rest.head?, b < 0x80) :
    ¬ Text.byteOrderMark <+: rest := by
  rintro ⟨more, rfl⟩
  have hfirst : (0xEF : UInt8) < 0x80 := h 0xEF rfl
  revert hfirst
  decide

-- The mark is the encoding of one character, and what a text starts with is that of its first one.
theorem not_mark_of_text {text : String} {rest : Bytes}
    (htext : text.toList.head? ≠ some '\uFEFF') (hrest : ∀ b ∈ rest.head?, b < 0x80) :
    ¬ Text.byteOrderMark <+: Text.encode text ++ rest := by
  cases hchars : text.toList with
  | nil =>
      rw [Text.encode, hchars, List.flatMap_nil, List.nil_append]
      exact not_mark_of_ascii hrest
  | cons c cs =>
      rintro ⟨more, hmore⟩
      have hmark : Text.byteOrderMark = String.utf8EncodeChar '\uFEFF' := by decide
      -- Bytes that start with the mark decode to its character first, which the text does not start
      -- with.
      have hdecoded := ByteArray.utf8DecodeChar?_utf8EncodeChar_append (b := more.toByteArray)
        (c := '\uFEFF')
      rw [← List.toByteArray_append, ← hmark, hmore, Text.encode, hchars, List.flatMap_cons,
        List.append_assoc, List.toByteArray_append,
        ByteArray.utf8DecodeChar?_utf8EncodeChar_append] at hdecoded
      rw [hchars, List.head?_cons] at htext
      exact htext hdecoded

/-- What ends a field is ASCII, and so no part of the mark. -/
theorem ascii_of_endsField (hd : d.Proper) {b : UInt8}
    (hb : b = d.delimiter ∨ isLineBreak b = true) : b < 0x80 := by
  rcases hb with rfl | hb
  · exact hd.delimiter_ascii
  · rw [isLineBreak, Bool.or_eq_true, beq_iff_eq, beq_iff_eq] at hb
    rcases hb with rfl | rfl <;> decide

/-- Records that were laid out start with a byte order mark only if their first field does. -/
theorem not_mark_layout (hd : d.Proper) (lineEnd : LineEnd) {rows : List (List String)}
    (hrows : ∀ fields ∈ rows, fields ≠ [])
    (hmark : ∀ fields ∈ rows.head?, ∀ field ∈ fields.head?, field.toList.head? ≠ some '\uFEFF') :
    ¬ Text.byteOrderMark <+:
      d.layout lineEnd (rows.map fun fields => fields.map Text.encode) := by
  have hquoted : ∀ {input : Bytes}, input.head? = some d.quote → ¬ Text.byteOrderMark <+: input := by
    refine fun hhead => not_mark_of_ascii fun b hb => ?_
    rw [hhead] at hb
    cases hb
    exact hd.quote_ascii
  cases rows with
  | nil => exact not_mark_of_ascii fun b hb => absurd hb (Option.not_mem_none b)
  | cons fields rows =>
      rcases List.exists_cons_of_ne_nil (hrows fields List.mem_cons_self) with ⟨field, more, rfl⟩
      rcases lineEnd.exists_bytes with ⟨e, left, hbytes, he, _⟩
      rw [List.map_cons, List.map_cons, layout, List.flatMap_cons, hbytes]
      rcases layoutRecord_cases d (Text.encode field) (more.map Text.encode) with
        hrecord | ⟨tail, hrecord, htail⟩
      · rw [hrecord]
        exact hquoted rfl
      · rw [hrecord, List.append_assoc, List.append_assoc]
        rcases layoutField_cases d (Text.encode field) with hhead | ⟨hfield, _⟩
        · refine hquoted ?_
          rw [List.head?_append, hhead, Option.some_or]
        · -- The field is written as it is, and the byte behind it is one of ASCII.
          rw [hfield]
          refine not_mark_of_text (hmark _ rfl field rfl) fun b hb => ascii_of_endsField hd ?_
          cases tail with
          | nil =>
              cases hb
              exact Or.inr he
          | cons c x => exact Or.inl (htail b hb)

end Mark

/-- Without the mark in front the records are those of the input. -/
theorem document_of_not_mark {input : Bytes} (h : ¬ Text.byteOrderMark <+: input) :
    d.document input = d.records input := by
  rw [document, if_neg fun hmark => h (List.isPrefixOf_iff_prefix.1 hmark)]

/-- Records of encoded texts are read as these texts. -/
theorem texts_of_fields {input : Bytes} {rows : List (List String)}
    (h : (d.document input).map Record.fields = rows.map fun fields => fields.map Text.encode) :
    d.texts input = rows.map .ok := by
  -- Records are decoded one by one, each under its number, which does not matter where decoding
  -- succeeds.
  refine List.ext_getElem? fun i => ?_
  have hi := congrArg (fun fields => fields[i]?) h
  simp only [List.getElem?_map] at hi
  rw [texts, List.getElem?_map, List.getElem?_zipIdx, List.getElem?_map]
  cases hrow : rows[i]? with
  | none =>
      rw [hrow, Option.map_none, Option.map_eq_none_iff] at hi
      rw [hi]
      rfl
  | some fields =>
      rw [hrow, Option.map_some, Option.map_eq_some_iff] at hi
      rcases hi with ⟨r, hr, hfields⟩
      rw [hr, Option.map_some, Option.map_some, Option.map_some]
      dsimp only
      rw [hfields, decodeFields_encode]
      rfl

/-- Records of text that were laid out are read back. -/
theorem texts_layout (hd : d.Proper) (lineEnd : LineEnd) {rows : List (List String)}
    (hrows : ∀ fields ∈ rows, fields ≠ [])
    (hmark : ∀ fields ∈ rows.head?, ∀ field ∈ fields.head?, field.toList.head? ≠ some '\uFEFF') :
    d.texts (d.layout lineEnd (rows.map fun fields => fields.map Text.encode)) = rows.map .ok := by
  have hencoded : ∀ fields ∈ rows.map fun fields => fields.map Text.encode, fields ≠ [] := by
    intro fields hfields
    rcases List.mem_map.1 hfields with ⟨texts, htexts, rfl⟩
    exact fun hnil => hrows texts htexts (List.map_eq_nil_iff.1 hnil)
  have hnone : ∀ b ∈ ([] : Bytes), isLineBreak b = true := List.forall_mem_nil _
  refine texts_of_fields ?_
  rw [document_of_not_mark (not_mark_layout hd lineEnd hrows hmark)]
  exact records_layout hd lineEnd hencoded hnone

section NonEmpty

/-- A record has a field even where there is nothing to read. -/
theorem fields_ne_nil (d : Dialect) (place : Place) (input : Bytes) :
    (d.fields place input).1 ≠ [] := by
  induction input generalizing place with
  | nil => exact List.cons_ne_nil _ _
  | cons b rest ih =>
      rw [fields]
      split
      · rename_i next _
        rcases List.exists_cons_of_ne_nil (ih next) with ⟨field, more, hfields⟩
        rw [Prod.map_fst, hfields]
        exact List.cons_ne_nil _ _
      · exact ih _
      · exact List.cons_ne_nil _ _
      · exact List.cons_ne_nil _ _

theorem ne_nil_of_mem_records {input : Bytes} {r : Record} (h : r ∈ d.records input) :
    r.fields ≠ [] := by
  fun_induction d.records input with
  | case1 input hinput => cases h
  | case2 input b body hinput ih =>
      rcases List.mem_cons.1 h with rfl | h
      · exact fields_ne_nil d .start _
      · exact ih h

/-- The mark in front takes no fields away. -/
theorem ne_nil_of_mem_document {input : Bytes} {r : Record} (h : r ∈ d.document input) :
    r.fields ≠ [] := by
  unfold document at h
  split at h
  · split at h
    · cases h
    · rename_i first rest hrecords
      have hall : ∀ r ∈ first :: rest, r.fields ≠ [] := fun r hr =>
        ne_nil_of_mem_records (hrecords ▸ hr)
      rcases List.mem_cons.1 h with rfl | h
      · exact hall first List.mem_cons_self
      · exact hall r (List.mem_cons_of_mem _ h)
  · exact ne_nil_of_mem_records h

/-- Each field gives one text, so none are read from none only. -/
theorem eq_nil_of_decodeFields {index : Nat} {fields : List Bytes}
    (h : decodeFields index fields = .ok []) : fields = [] := by
  cases fields with
  | nil => rfl
  | cons field more =>
      rw [decodeFields] at h
      split at h
      · cases h
      · rcases map_eq_ok_iff.1 h with ⟨texts, _, hcons⟩
        cases hcons

/-- No record that is read is without fields. -/
theorem ne_nil_of_mem_texts {input : Bytes} {fields : List String}
    (h : .ok fields ∈ d.texts input) : fields ≠ [] := by
  rcases List.mem_map.1 h with ⟨⟨r, i⟩, hmem, hdecoded⟩
  rintro rfl
  exact ne_nil_of_mem_document (List.fst_mem_of_mem_zipIdx hmem)
    (eq_nil_of_decodeFields (mapError_eq_ok_iff.1 hdecoded))

end NonEmpty

end Dialect

end Delimited

end Worksheet
