import Mathlib
import Worksheet.Proofs.Delimited.RoundTrip
import Worksheet.Proofs.Text.Pieces
import Worksheet.Sheet.Basic

/-!
# Reading a sheet that was written

A sheet that was written and is read with the same dialect keeps its header, its rows and the number
of cells in each. Each cell is what would be typed in for the field written for it, so a formula
that was written as such stays a formula, and one that was written as the text it displays becomes
this text. Whether a row is a total row is decided anew from its first field.

Nothing more is lost the second time: a sheet that was read once, and is written with its formulas,
is read back as it is. The blanks around a formula are gone by then, and they never counted for the
marker of total rows.

A row without cells would be written like a row with one empty cell, and the first field must not
start with the character of the byte order mark, which is taken for no part of the sheet.

## Main definitions

* `Sheet.Filled`: A sheet without empty records.
* `Sheet.firstField?`: The first field written for a sheet.
* `Sheet.rereadRow`, `Sheet.reread`: A row and a sheet after they were written and read.

## Theorems

* `Cell.source?_ofInput`: The formula of a cell that was typed in.
* `Sheet.cell_reread`, `Sheet.isTotalMarker_reread`: A field that was read once stays as it is.
* `Sheet.texts_write`: The records written for a sheet are read back as text.
* `Sheet.read_write`: Reading a sheet that was written.
-/

namespace Worksheet

/-- A typed text becomes a formula exactly if it starts with `=` after blanks. -/
theorem Cell.source?_ofInput (input : String) : (ofInput input).source? =
    if (Text.trimStart input.toList).head? = some '=' then
      some (String.ofList (Text.trim input.toList))
    else none := by
  unfold ofInput
  by_cases hformula : (Text.trimStart input.toList).head? = some '='
  · rw [if_pos hformula, if_pos hformula]
    refine Option.filter_eq_some_iff.2 ⟨rfl, ?_⟩
    rw [isFormula, String.toList_ofList, Text.head?_trim, hformula]
    rfl
  · rw [if_neg hformula, if_neg hformula]
    rfl

namespace Sheet

/-- A sheet in which neither the header nor a row is without fields. -/
structure Filled (s : Sheet) : Prop where
  /-- The header has a field, if there is one. -/
  header : ∀ fields ∈ s.headers, fields ≠ []
  /-- Each row has a cell. -/
  rows : ∀ r ∈ s.table.rows, r.cells ≠ []

/-- The first field written for a sheet, if anything is. -/
def firstField? (options : WriteOptions) (s : Sheet) : Option String :=
  (s.records options).head?.bind List.head?

/-- A row after it was written and read. -/
def rereadRow (r : ReadOptions) (w : WriteOptions) (row : Row) : Row where
  cells := row.cells.map fun c => Cell.ofInput (writtenText w c)
  isTotal := row.cells.head?.any fun c => r.isTotalMarker (writtenText w c)

/-- A sheet after it was written and read. -/
def reread (r : ReadOptions) (w : WriteOptions) (s : Sheet) : Sheet where
  headers := s.headers
  table := ⟨s.table.rows.map (rereadRow r w)⟩

variable {r : ReadOptions} {w : WriteOptions} {s : Sheet} {bytes : Text.Bytes}
  {records : List (Except Delimited.Misencoded (List String))} {rows : List Row} {number : Nat}

section Reading

/-- Records are read as rows exactly when all of them are text. -/
theorem readRows_eq_ok_iff : readRows r number records = .ok rows ↔
    ∃ texts : List (List String), records = texts.map .ok ∧ rows = texts.map r.row := by
  induction records generalizing number rows with
  | nil =>
      constructor
      · intro h
        cases h
        exact ⟨[], rfl, rfl⟩
      · rintro ⟨texts, htexts, rfl⟩
        rw [List.map_eq_nil_iff.1 htexts.symm]
        rfl
  | cons record rest ih =>
      cases record with
      | error cause =>
          -- One record that cannot be read ends the reading.
          constructor
          · intro h
            cases h
          · rintro ⟨texts, htexts, _⟩
            cases texts <;> cases htexts
      | ok fields =>
          rw [readRows, map_eq_ok_iff]
          constructor
          · rintro ⟨others, hothers, rfl⟩
            rcases ih.1 hothers with ⟨texts, rfl, rfl⟩
            exact ⟨fields :: texts, rfl, rfl⟩
          · rintro ⟨texts, htexts, rfl⟩
            cases texts with
            | nil => cases htexts
            | cons first texts =>
                cases htexts
                exact ⟨texts.map r.row, ih.2 ⟨texts, rfl, rfl⟩, rfl⟩

/-- Records of text form a sheet with the first of them as its header, if it is to have one. -/
theorem ofRecords_texts {headers : Option (List String)} (h : r.hasHeader = headers.isSome)
    (texts : List (List String)) :
    ofRecords r ((headers.toList ++ texts).map .ok) = .ok ⟨headers, ⟨texts.map r.row⟩⟩ := by
  -- The records are texts, so all rows are read; it remains to see which one is the header.
  have hrows : readRows r 1 (texts.map .ok) = .ok (texts.map r.row) :=
    readRows_eq_ok_iff.2 ⟨texts, rfl, rfl⟩
  cases headers with
  | some header =>
      have hheader : r.hasHeader = true := h
      rw [Option.toList_some, List.singleton_append, List.map_cons, ofRecords, if_pos hheader, hrows]
      rfl
  | none =>
      have hheader : r.hasHeader ≠ true := Bool.eq_false_iff.1 h
      rw [Option.toList_none, List.nil_append]
      cases texts with
      | nil => rfl
      | cons first texts =>
          rw [List.map_cons] at hrows ⊢
          rw [ofRecords, if_neg hheader, hrows]
          rfl

-- Only a sheet without records may lack the header it is to have.
theorem texts_of_ofRecords (h : ofRecords r records = .ok s) : s = {} ∨
    ∃ texts : List (List String), records = (s.headers.toList ++ texts).map .ok ∧
      r.hasHeader = s.headers.isSome ∧ s = ⟨s.headers, ⟨texts.map r.row⟩⟩ := by
  cases records with
  | nil =>
      cases h
      exact Or.inl rfl
  | cons first rest =>
      right
      rw [ofRecords.eq_def] at h
      dsimp only at h
      -- The first record is the header if one is expected, and a row like the others if not.
      by_cases hheader : r.hasHeader = true
      · rw [if_pos hheader] at h
        cases first with
        | error cause => cases h
        | ok fields =>
            rcases map_eq_ok_iff.1 h with ⟨rows, hrows, rfl⟩
            rcases readRows_eq_ok_iff.1 hrows with ⟨texts, rfl, rfl⟩
            exact ⟨texts, rfl, hheader, rfl⟩
      · rw [if_neg hheader] at h
        rcases map_eq_ok_iff.1 h with ⟨rows, hrows, rfl⟩
        rcases readRows_eq_ok_iff.1 hrows with ⟨texts, htexts, rfl⟩
        exact ⟨texts, htexts, Bool.eq_false_iff.2 hheader, rfl⟩

/-- A sheet that was read has no records at all, or it has a header if one was asked for, and its
    rows are formed by fields. -/
theorem cases_of_read (h : read r bytes = .ok s) : s = {} ∨ s.Filled ∧
    r.hasHeader = s.headers.isSome ∧
      ∃ texts : List (List String), s.table.rows = texts.map r.row := by
  rcases texts_of_ofRecords h with rfl | ⟨texts, hrecords, hheader, hs⟩
  · exact Or.inl rfl
  -- A record is never without fields, so no row and no header is.
  have hne : ∀ fields ∈ s.headers.toList ++ texts, fields ≠ [] := by
    intro fields hfields
    have hmem : .ok fields ∈ r.texts bytes := by
      rw [hrecords]
      exact List.mem_map_of_mem hfields
    exact Delimited.Dialect.ne_nil_of_mem_texts hmem
  have hrows : s.table.rows = texts.map r.row := by
    rw [hs]
  refine Or.inr ⟨⟨fun fields hfields => ?_, fun row hrow => ?_⟩, hheader, texts, hrows⟩
  · exact hne fields (List.mem_append_left _ (Option.mem_toList.2 hfields))
  · rw [hrows] at hrow
    rcases List.mem_map.1 hrow with ⟨fields, hfields, rfl⟩
    exact fun hnil =>
      hne fields (List.mem_append_right _ hfields) (List.map_eq_nil_iff.1 hnil)

end Reading

section Cells

-- A formula that was typed in is written without the blanks around it, anything else as it is.
theorem writtenText_ofInput (h : w.writeFormulas = true) (field : String) :
    writtenText w (Cell.ofInput field) =
      if (Text.trimStart field.toList).head? = some '=' then String.ofList (Text.trim field.toList)
      else field := by
  rw [writtenText, Cell.source?_ofInput]
  by_cases hformula : (Text.trimStart field.toList).head? = some '='
  · rw [if_pos hformula, if_pos hformula]
    exact if_pos h
  · rw [if_neg hformula, if_neg hformula, Cell.ofInput, if_neg hformula]
    exact Content.plainText_run field

/-- A cell that was read once stays as it is. -/
theorem cell_reread (h : w.writeFormulas = true) (field : String) :
    Cell.ofInput (writtenText w (Cell.ofInput field)) = Cell.ofInput field := by
  rw [writtenText_ofInput h]
  by_cases hformula : (Text.trimStart field.toList).head? = some '='
  · rw [if_pos hformula, Cell.ofInput, Cell.ofInput, if_pos hformula, String.toList_ofList,
      Text.trim_trim, ← Text.head?_trim, Text.trim_trim, Text.head?_trim, if_pos hformula]
  · rw [if_neg hformula]

/-- A field that was read once marks a total row if it did. -/
theorem isTotalMarker_reread (h : w.writeFormulas = true) (field : String) :
    r.isTotalMarker (writtenText w (Cell.ofInput field)) = r.isTotalMarker field := by
  have hfolded : folded (writtenText w (Cell.ofInput field)) = folded field := by
    rw [writtenText_ofInput h]
    by_cases hformula : (Text.trimStart field.toList).head? = some '='
    · rw [if_pos hformula, folded, String.toList_ofList, Text.trim_trim, folded]
    · rw [if_neg hformula]
  rw [ReadOptions.isTotalMarker, hfolded, ReadOptions.isTotalMarker]

/-- A row that is written and read is the row with its cells read again. -/
theorem row_written (r : ReadOptions) (w : WriteOptions) (row : Row) :
    r.row (row.cells.map (writtenText w)) = rereadRow r w row := by
  rw [ReadOptions.row, rereadRow, List.map_map, List.head?_map, Option.any_map]
  rfl

/-- With formulas written, reading again changes nothing in a row that was read. -/
theorem rereadRow_row (h : w.writeFormulas = true) (fields : List String) :
    rereadRow r w (r.row fields) = r.row fields := by
  have hcells : (fields.map Cell.ofInput).map (fun c => Cell.ofInput (writtenText w c)) =
      fields.map Cell.ofInput := by
    rw [List.map_map]
    exact List.map_congr_left fun field _ => cell_reread h field
  have htotal : (fields.map Cell.ofInput).head?.any (fun c => r.isTotalMarker (writtenText w c)) =
      fields.head?.any r.isTotalMarker := by
    cases fields with
    | nil => rfl
    | cons field _ => exact isTotalMarker_reread h field
  rw [rereadRow, ReadOptions.row, hcells, htotal]

end Cells

section Writing

theorem records_eq (hwrite : w.writeHeader = true) (s : Sheet) : s.records w =
    s.headers.toList ++ s.table.rows.map fun row => row.cells.map (writtenText w) := by
  rw [records, if_pos hwrite]

theorem Filled.ne_nil_of_mem_records (hfilled : s.Filled) (hwrite : w.writeHeader = true) :
    ∀ fields ∈ s.records w, fields ≠ [] := by
  intro fields hfields
  rw [records_eq hwrite] at hfields
  rcases List.mem_append.1 hfields with hfields | hfields
  · exact hfilled.header fields (Option.mem_toList.1 hfields)
  · rcases List.mem_map.1 hfields with ⟨row, hrow, rfl⟩
    exact fun hnil => hfilled.rows row hrow (List.map_eq_nil_iff.1 hnil)

/-- The records written for a sheet are read back as text. -/
theorem texts_write (hd : r.toDialect.Proper) (hdialect : w.toDialect = r.toDialect)
    (hne : ∀ fields ∈ s.records w, fields ≠ [])
    (hmark : ∀ field ∈ s.firstField? w, field.toList.head? ≠ some '\uFEFF') :
    r.texts (s.write w) = (s.records w).map .ok := by
  rw [write, hdialect]
  refine Delimited.Dialect.texts_layout hd w.lineEnd hne fun fields hfields field hfield => ?_
  exact hmark field (Option.bind_eq_some_iff.2 ⟨fields, hfields, hfield⟩)

/-- A sheet is read back if its header is what the reader expects, or if it has no records. -/
theorem read_write_of_records (hd : r.toDialect.Proper) (hdialect : w.toDialect = r.toDialect)
    (hwrite : w.writeHeader = true) (hne : ∀ fields ∈ s.records w, fields ≠ [])
    (hheader : s.records w ≠ [] → r.hasHeader = s.headers.isSome)
    (hmark : ∀ field ∈ s.firstField? w, field.toList.head? ≠ some '\uFEFF') :
    read r (s.write w) = .ok (s.reread r w) := by
  have hrows : (s.table.rows.map fun row => row.cells.map (writtenText w)).map r.row =
      s.table.rows.map (rereadRow r w) := by
    rw [List.map_map]
    exact List.map_congr_left fun row _ => row_written r w row
  rw [read, texts_write hd hdialect hne hmark, reread, ← hrows]
  by_cases hnone : s.records w = []
  · -- Nothing is written for a sheet without records.
    rw [hnone]
    rw [records_eq hwrite, List.append_eq_nil_iff, Option.toList_eq_nil_iff] at hnone
    rw [hnone.1, hnone.2]
    rfl
  · rw [records_eq hwrite, ofRecords_texts (hheader hnone)]

end Writing

/-- A sheet that was written is read back with the same header and the same rows, each cell being
    what its field stands for. A sheet that was read before is read back as it is, if its formulas
    were written. -/
theorem read_write (s : Sheet) (r : ReadOptions) (w : WriteOptions) (hd : r.toDialect.Proper)
    (hdialect : w.toDialect = r.toDialect) (hwrite : w.writeHeader = true)
    (hmark : ∀ field ∈ s.firstField? w, field.toList.head? ≠ some '\uFEFF') :
    (s.Filled → r.hasHeader = s.headers.isSome → read r (s.write w) = .ok (s.reread r w)) ∧
      (w.writeFormulas = true → (∃ bytes, read r bytes = .ok s) → read r (s.write w) = .ok s) := by
  have hreread : s.Filled → r.hasHeader = s.headers.isSome →
      read r (s.write w) = .ok (s.reread r w) := fun hfilled hheader =>
    read_write_of_records hd hdialect hwrite (hfilled.ne_nil_of_mem_records hwrite)
      (fun _ => hheader) hmark
  refine ⟨hreread, ?_⟩
  rintro hformulas ⟨bytes, hbytes⟩
  rcases cases_of_read hbytes with rfl | ⟨hfilled, hheader, texts, hrows⟩
  · -- A sheet that was read from nothing is written as nothing.
    have hnone : Sheet.records w {} = [] := records_eq hwrite {}
    refine read_write_of_records hd hdialect hwrite ?_ (fun hne => absurd hnone hne) hmark
    rw [hnone]
    exact List.forall_mem_nil _
  · -- Cells that were made from their text are made from it again.
    have hsame : (texts.map r.row).map (rereadRow r w) = texts.map r.row := by
      rw [List.map_map]
      exact List.map_congr_left fun fields _ => rereadRow_row hformulas fields
    rw [hreread hfilled hheader, reread, hrows, hsame, ← hrows]

-- The text with blanks around it becomes a formula, and stays one.
theorem read_write_twice :
    let s : Sheet := ⟨some ["a,b"], ⟨[⟨[.ofText " =A1 ", .ofText ""], false⟩]⟩⟩
    let t : Sheet := ⟨some ["a,b"], ⟨[⟨[.ofFormula "=A1", .ofText ""], true⟩]⟩⟩
    let r : ReadOptions := { totalMarker := some "=a1" }
    let w : WriteOptions := { writeFormulas := true }
    read r (s.write w) = .ok t ∧ read r (t.write w) = .ok t := by
  intro s t r w
  have hd : r.toDialect.Proper := ⟨by decide, by decide, by decide, by decide, by decide⟩
  have hmark : ∀ field ∈ some "a,b", field.toList.head? ≠ some '\uFEFF' := by
    intro field hfield
    cases hfield
    decide
  have hfilled : s.Filled := by
    refine ⟨fun fields hfields => ?_, fun row hrow => ?_⟩
    · cases hfields
      exact List.cons_ne_nil _ _
    · rw [List.mem_singleton.1 hrow]
      exact List.cons_ne_nil _ _
  have hreread : s.reread r w = t := by cbv
  have hread := (read_write s r w hd rfl rfl hmark).1 hfilled rfl
  rw [hreread] at hread
  exact ⟨hread, (read_write t r w hd rfl rfl hmark).2 rfl ⟨_, hread⟩⟩

end Sheet

end Worksheet
