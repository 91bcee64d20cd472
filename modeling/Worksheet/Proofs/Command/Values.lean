import Mathlib
import Worksheet.Command.Run
import Worksheet.Proofs.Sheet.Values
import Worksheet.Proofs.Storage.Folder

/-!
# Recalculating twice

The values that a recalculation writes to a file of comma-separated values are all that a second one
finds there. It has no formula to calculate, whatever its options are, and writes the same bytes
again. So a file of values can be recalculated any number of times, and the formulas can be told
from the values by the file alone.

## Main definitions

* `WritesValues`: A command line that asks for the values of a sheet in a file.

## Theorems

* `Request.toDialect_of_ofWords`: No option changes the dialect of the input.
* `run_writesValues`: What such a command line does.
* `run_again_on_values`: The values are kept.
-/

namespace Worksheet

namespace Command

namespace Request

variable {words : List String} {r : RecalcRequest}

/-- Of all commands only the one that recalculates forms such a request, and no option of it changes
    the dialect. -/
theorem toDialect_of_mem_commands {name : String} {spec : CommandSpec} {args : Arguments}
    {request : Arguments → Except UsageError Request} (hmem : (name, spec, request) ∈ commands)
    (h : request args = .ok (.recalc r)) : r.readOptions.toDialect = {} := by
  simp only [commands, List.mem_cons, Prod.mk.injEq, List.not_mem_nil, or_false] at hmem
  rcases hmem with ⟨_, _, rfl⟩ | ⟨_, _, rfl⟩ | ⟨_, _, rfl⟩ | ⟨_, _, rfl⟩
  · -- Only the first command asks for a recalculation, and it reads with the options it starts
    -- from.
    rcases bind_eq_ok_iff.1 h with ⟨output, _, h⟩
    rcases bind_eq_ok_iff.1 h with ⟨decimals, _, h⟩
    rcases bind_eq_ok_iff.1 h with ⟨input, _, h⟩
    cases h
    rfl
  · rcases bind_eq_ok_iff.1 h with ⟨input, _, h⟩
    cases h
  · rcases bind_eq_ok_iff.1 h with ⟨formula, _, h⟩
    cases h
  · rcases bind_eq_ok_iff.1 h with ⟨cols, _, h⟩
    rcases bind_eq_ok_iff.1 h with ⟨rows, _, h⟩
    rcases bind_eq_ok_iff.1 h with ⟨afterCol, _, h⟩
    rcases bind_eq_ok_iff.1 h with ⟨afterRow, _, h⟩
    rcases bind_eq_ok_iff.1 h with ⟨formula, _, h⟩
    cases h

/-- A command with a request other than for help was given arguments for it. -/
theorem exists_of_ofCommand {spec : CommandSpec}
    {request : Arguments → Except UsageError Request}
    (h : ofCommand spec request words = .ok (.recalc r)) :
    ∃ args, request args = .ok (.recalc r) := by
  rcases bind_eq_ok_iff.1 h with ⟨answer, _, h⟩
  cases answer with
  | run args => exact ⟨args, h⟩
  | help args =>
      dsimp only at h
      split at h <;> cases h

/-- The input is read in the usual dialect, whatever the options are. -/
theorem toDialect_of_ofWords (h : ofWords words = .ok (.recalc r)) :
    r.readOptions.toDialect = {} := by
  unfold ofWords at h
  split at h
  · cases h
  · unfold ofHelp at h
    split at h
    · cases h
    · split at h <;> cases h
    · cases h
  · -- The first word is a command of the table, or one of the general words, which ask for no
    -- recalculation.
    rename_i first words _
    split at h
    · rename_i spec request hlookup
      rcases exists_of_ofCommand h with ⟨args, hargs⟩
      rcases List.lookup_eq_some_iff.1 hlookup with ⟨before, behind, hcommands, _⟩
      have hmem : (first, spec, request) ∈ commands := by
        rw [hcommands]
        exact List.mem_append_right _ List.mem_cons_self
      exact toDialect_of_mem_commands hmem hargs
    · unfold ofGeneralWord at h
      split at h
      · cases h
      · cases h
      · split_ifs at h <;> cases h

end Request

/-- A command line that asks for the values of a sheet, from one file of comma-separated values to
    another. -/
structure WritesValues (words : List String) (r : RecalcRequest) (path : String) : Prop where
  /-- What the words ask for. -/
  request : Request.ofWords words = .ok (.recalc r)
  /-- The sheet is written, and not the report. -/
  values : r.asJson = false
  /-- The values of the input are separated by commas. -/
  input_csv : Sheet.delimiterOf? r.input = some 0x2C
  /-- The sheet is written to a file. -/
  output : r.output = some path
  /-- The values in that file are separated by commas as well. -/
  output_csv : Sheet.delimiterOf? path = some 0x2C

variable {folder : Folder} {words again : List String} {r first second : RecalcRequest}
  {path path' : String} {sheet : Sheet}

/-- The note about a sheet that was written. -/
def writtenNote (s : Sheet) (path : String) : String :=
  line ("Wrote " ++ Nat.repr s.table.rows.length ++ " rows to '" ++ path ++ "'")

/-- What the command line does, if the input can be read and the output can be written. -/
theorem run_writesValues (h : WritesValues words r path)
    (hload : ((Sheet.loadAs Folder.storage r.input r.readOptions).run folder).1 = .ok sheet)
    (hfree : folder.obstacle? path = none) :
    (run Folder.storage words).run folder =
      ({ err := (sheet.table.view.recalculate r.options).summary ++
          writtenNote (sheet.recalculated r.options) path },
        folder.write (Path.components path) ((sheet.recalculated r.options).write {})) := by
  -- Loading changes no file.
  have hloaded : (Sheet.loadAs Folder.storage r.input r.readOptions).run folder =
      (.ok sheet, folder) := by
    rw [Sheet.run_loadAs h.input_csv] at hload ⊢
    exact Prod.ext hload rfl
  have hsaved := Sheet.run_saveAs h.output_csv hfree {} (sheet.recalculated r.options)
  -- Nothing stands in the way of the output, so it is written.
  have hwritten : (r.writeSheet Folder.storage (sheet.table.view.recalculate r.options) sheet).run
      folder = ({ err := (sheet.table.view.recalculate r.options).summary ++
          writtenNote (sheet.recalculated r.options) path },
        folder.write (Path.components path) ((sheet.recalculated r.options).write {})) := by
    unfold RecalcRequest.writeSheet
    rw [h.output]
    change ((sheet.recalculated r.options).saveAs Folder.storage path {} >>= _).run folder = _
    rw [StateT.run_bind, hsaved]
    rfl
  unfold run
  rw [h.request]
  simp only [Request.run, RecalcRequest.run, StateT.run_bind, hloaded]
  simp only [h.values, Bool.false_eq_true, if_false]
  exact hwritten

/-- The options with a comma for the delimiter are those with no dialect of their own. -/
theorem Request.proper_of_ofWords (h : ofWords words = .ok (.recalc r)) :
    ({ r.readOptions with delimiter := 0x2C } : ReadOptions).toDialect = {} := by
  have hdialect := toDialect_of_ofWords h
  rw [Delimited.Dialect.mk.injEq] at hdialect ⊢
  exact ⟨rfl, hdialect.2⟩

/-- The values that were written are all that is found in their file: loaded again, whatever marks
    total rows now, it has the same header and the same texts in the same cells, and no formula. So
    running the command on this file, with any other options, calculates nothing and writes the same
    file again. -/
theorem run_again_on_values (hfirst : WritesValues words first path)
    (hsecond : WritesValues again second path') (hinput : second.input = path)
    (hheader : second.readOptions.hasHeader = first.readOptions.hasHeader)
    (hcurrency : ∀ setting ∈ first.options.style.currency,
      (Text.trim setting.toList).head? ≠ some '=')
    (hload : ((Sheet.loadAs Folder.storage first.input first.readOptions).run folder).1 =
      .ok sheet)
    (hmark : ∀ field ∈ (sheet.recalculated first.options).firstField? {},
      field.toList.head? ≠ some '\uFEFF')
    (hfree : folder.obstacle? path = none)
    (hfree' : ((run Folder.storage words).run folder).2.obstacle? path' = none) :
    let shown := sheet.recalculated first.options
    let written := (run Folder.storage words).run folder
    let rewritten := (run Folder.storage again).run written.2
    (written.1.code = 0 ∧ written.2.read path = .ok (shown.write {})) ∧
      (∃ values, ((Sheet.loadAs Folder.storage path second.readOptions).run written.2).1 =
          .ok values ∧
        values.headers = shown.headers ∧ values.table.texts = shown.table.texts ∧
          values.table.HasNoFormulas) ∧
      (rewritten.1.code = 0 ∧
        rewritten.1.err = line "Calculated 0 formulas (0 errors, 0 circular)" ++
          writtenNote shown path' ∧
        rewritten.2.read path' = written.2.read path) := by
  intro shown written rewritten
  rcases (Sheet.run_loadAs_eq_ok_iff hfirst.input_csv).1 hload with ⟨bytes, _, hread⟩
  have hwritten : written = _ := run_writesValues hfirst hload hfree
  have hfile : written.2.read path = .ok (shown.write {}) := by
    rw [hwritten]
    exact Folder.read_write_self hfree _
  -- The file is read back as the values that are displayed.
  let options : ReadOptions := { second.readOptions with delimiter := 0x2C }
  have hdialect : options.toDialect = {} := Request.proper_of_ofWords hsecond.request
  have hd : options.toDialect.Proper := by
    rw [hdialect]
    exact ⟨by decide, by decide, by decide, by decide, by decide⟩
  have hreread : Sheet.read options (shown.write {}) = .ok (shown.reread options {}) :=
    Sheet.read_recalculated hread hd hdialect.symm hheader rfl hmark
  have hloaded : ((Sheet.loadAs Folder.storage path second.readOptions).run written.2).1 =
      .ok (shown.reread options {}) :=
    (Sheet.run_loadAs_eq_ok_iff hfirst.output_csv).2 ⟨_, hfile, hreread⟩
  have hdata : shown.table.ShowsData := Sheet.showsData_recalculated hread hcurrency
  rcases Sheet.reread_values (r := options) (w := {}) rfl hdata with ⟨hnone, htexts⟩
  refine ⟨⟨?_, hfile⟩, ⟨_, hloaded, rfl, htexts, hnone⟩, ?_⟩
  · rw [hwritten]
  · -- There is nothing to calculate in what was loaded, and it is written as it was.
    have hagain : rewritten = _ := run_writesValues hsecond (hinput ▸ hloaded) hfree'
    have hrows : (shown.reread options {}).table.rows.length = shown.table.rows.length :=
      List.length_map _
    rw [Sheet.recalculated_of_hasNoFormulas hnone, Table.recalculate_of_hasNoFormulas hnone,
      Sheet.write_reread rfl rfl hdata, writtenNote, hrows] at hagain
    rw [hagain, hfile]
    exact ⟨rfl, rfl, Folder.read_write_self hfree' _⟩

-- A formula without a value shows a dash, and the second pass has a currency of its own.
theorem run_again_on_values_of_dash :
    let sheet : Sheet := ⟨some ["x", "a,b"], ⟨[⟨[.ofText "1", .ofFormula "=A9"], false⟩]⟩⟩
    let bytes := sheet.write { writeFormulas := true }
    let folder : Folder := ⟨[(["a.csv".toList], bytes)]⟩
    let written := (run Folder.storage ["recalc", "a.csv", "-o", "b.csv"]).run folder
    let rewritten :=
      (run Folder.storage ["recalc", "b.csv", "--output=c.csv", "--currency", "="]).run written.2
    written.1.code = 0 ∧ rewritten.1.code = 0 ∧
      rewritten.2.read "c.csv" = written.2.read "b.csv" := by
  intro sheet bytes folder written rewritten
  have hread : Sheet.read {} bytes = .ok sheet := by
    have hreread : sheet.reread {} { writeFormulas := true } = sheet := by cbv
    have hfields : ∀ fields ∈ sheet.records { writeFormulas := true }, fields ≠ [] := by
      have hrecords : sheet.records { writeFormulas := true } = [["x", "a,b"], ["1", "=A9"]] := by
        cbv
      rw [hrecords]
      simp
    rw [← hreread]
    refine Sheet.read_write_of_records ⟨by decide, by decide, by decide, by decide, by decide⟩
      rfl rfl hfields (fun _ => rfl) fun field hfield => ?_
    cases hfield
    decide
  -- From here on it does not matter how the file was made.
  clear_value bytes
  let first : RecalcRequest :=
    { input := "a.csv", output := some "b.csv", readOptions := {}, options := {}, asJson := false }
  let second : RecalcRequest :=
    { input := "b.csv", output := some "c.csv", readOptions := {}
      options := { style := { currency := some "=" } }, asJson := false }
  have hfirst : WritesValues ["recalc", "a.csv", "-o", "b.csv"] first "b.csv" :=
    ⟨by cbv, rfl, by cbv, rfl, by cbv⟩
  have hsecond : WritesValues ["recalc", "b.csv", "--output=c.csv", "--currency", "="] second
      "c.csv" := ⟨by cbv, rfl, by cbv, rfl, by cbv⟩
  have hfile : folder.read "a.csv" = .ok bytes := rfl
  have hload : ((Sheet.loadAs Folder.storage first.input first.readOptions).run folder).1 =
      .ok sheet := (Sheet.run_loadAs_eq_ok_iff hfirst.input_csv).2 ⟨bytes, hfile, hread⟩
  have hmark : ∀ field ∈ (sheet.recalculated first.options).firstField? {},
      field.toList.head? ≠ some '\uFEFF' := by
    intro field hfield
    have hx : (sheet.recalculated first.options).firstField? {} = some "x" := rfl
    rw [hx] at hfield
    cases hfield
    decide
  have hfree : folder.obstacle? "b.csv" = none := rfl
  have hfree' : written.2.obstacle? "c.csv" = none := by
    have hwritten : written = _ := run_writesValues hfirst hload hfree
    rw [hwritten]
    generalize (sheet.recalculated first.options).write {} = bytes
    rfl
  have hcurrency : ∀ setting ∈ first.options.style.currency,
      (Text.trim setting.toList).head? ≠ some '=' := by
    intro setting hsetting
    cases hsetting
  rcases run_again_on_values hfirst hsecond rfl rfl hcurrency hload hmark hfree hfree' with
    ⟨⟨hcode, _⟩, _, hcode', _, hsame⟩
  exact ⟨hcode, hcode', hsame⟩

end Command

end Worksheet
