import Mathlib.Tactic.SplitIfs
import Worksheet.Sheet.File
import Worksheet.Storage.Folder

/-!
# Files in a folder

Where a file can be made, it can be loaded afterwards: no directory stands in its place, since a
path is no proper beginning of itself. A sheet is loaded from a folder without changing it, and
saving one writes a single file.

## Theorems

* `Folder.read_write_self`: A file that could be made can be read.
* `Sheet.run_loadAs_eq_ok_iff`: What it takes to load a sheet.
* `Sheet.run_saveAs`: What saving a sheet does.
-/

namespace Worksheet

namespace Folder

variable {folder : Folder} {path : String} {name : List (List Char)} {bytes : Text.Bytes}
  {files : List (List (List Char) × Text.Bytes)}

/-- Writing a file brings in nothing but that file. -/
theorem any_writeFile_eq_false {p : List (List Char) × Text.Bytes → Bool}
    (hfiles : files.any p = false) (hnew : p (name, bytes) = false) :
    (writeFile name bytes files).any p = false := by
  induction files with
  | nil => simp [writeFile, hnew]
  | cons entry rest ih =>
      rw [List.any_cons, Bool.or_eq_false_iff] at hfiles
      rw [writeFile]
      split
      · simp [hnew, hfiles.2]
      · simp [hfiles.1, ih hfiles.2]

theorem isPrefixOf_dropLast (h : name ≠ []) : name.isPrefixOf name.dropLast = false := by
  refine Bool.eq_false_iff.2 fun hprefix => ?_
  have hlength := (List.isPrefixOf_iff_prefix.1 hprefix).length_le
  have hpos := List.length_pos_iff.2 h
  rw [List.length_dropLast] at hlength
  omega

/-- A file that could be made can be read. -/
theorem read_write_self (h : folder.obstacle? path = none) (bytes : Text.Bytes) :
    (folder.write (Path.components path) bytes).read path = .ok bytes := by
  unfold obstacle? at h
  dsimp only at h
  split_ifs at h with hempty hdirectory hblocked hparent hslash
  have hname : Path.components path ≠ [] := by
    intro hnil
    simp [hasDirectory, hnil] at hdirectory
  have hself := isPrefixOf_dropLast hname
  -- The path is no beginning of its own directory, so writing it neither makes it one nor blocks
  -- it.
  have hdirectory' :
      (folder.write (Path.components path) bytes).hasDirectory (Path.components path) = false := by
    simp only [hasDirectory, hname, decide_false, Bool.false_or, Bool.not_eq_true] at hdirectory ⊢
    exact any_writeFile_eq_false hdirectory hself
  have hblocked' :
      (folder.write (Path.components path) bytes).isBlocked (Path.components path) = false := by
    rw [Bool.not_eq_true] at hblocked
    exact any_writeFile_eq_false hblocked hself
  unfold read
  simp [hempty, hdirectory', hblocked', file?_write_self, hslash]

/-- Saving where nothing is in the way writes the file. -/
theorem run_save (h : folder.obstacle? path = none) (bytes : Text.Bytes) :
    (storage.save path bytes).run folder =
      (.ok (), folder.write (Path.components path) bytes) := by
  unfold storage
  simp only [StateT.run_bind, StateT.run_get, pure_bind, h]
  rfl

end Folder

namespace Sheet

variable {folder : Folder} {path : String} {delimiter : UInt8}

theorem run_loadAs (hdelimiter : delimiterOf? path = some delimiter) (options : ReadOptions) :
    (loadAs Folder.storage path options).run folder =
      (match folder.read path with
        | .error cause => .error (refusal { options with delimiter := delimiter } cause)
        | .ok bytes => read { options with delimiter := delimiter } bytes, folder) := by
  have hload : (Folder.storage.load path).run folder = (folder.read path, folder) := rfl
  unfold loadAs load
  rw [hdelimiter]
  simp only [StateT.run_bind, hload]
  cases folder.read path <;> rfl

/-- What it takes to load a sheet. -/
theorem run_loadAs_eq_ok_iff (hdelimiter : delimiterOf? path = some delimiter)
    {options : ReadOptions} {s : Sheet} :
    ((loadAs Folder.storage path options).run folder).1 = .ok s ↔
      ∃ bytes, folder.read path = .ok bytes ∧
        read { options with delimiter := delimiter } bytes = .ok s := by
  rw [run_loadAs hdelimiter]
  cases folder.read path with
  | error cause => simp
  | ok bytes => simp

/-- Saving a sheet makes or replaces one file. -/
theorem run_saveAs (hdelimiter : delimiterOf? path = some delimiter)
    (h : folder.obstacle? path = none) (options : WriteOptions) (s : Sheet) :
    (s.saveAs Folder.storage path options).run folder = (.ok (),
      folder.write (Path.components path) (s.write { options with delimiter := delimiter })) := by
  unfold saveAs save
  rw [hdelimiter]
  simp only [StateT.run_bind, Folder.run_save h]
  rfl

end Sheet

end Worksheet
