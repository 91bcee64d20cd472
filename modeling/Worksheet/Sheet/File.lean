import Worksheet.Sheet.Basic
import Worksheet.Storage.Path

/-!
# Sheets in files

A sheet is loaded from a file and saved to one either with a given delimiter or with the one that
goes with the extension of the file. A file with another extension is not touched.

## Main definitions

* `Sheet.delimiterOf?`: The delimiter that goes with the extension of a path.
* `Sheet.load`, `Sheet.save`: Reading and writing with a given delimiter.
* `Sheet.loadAs`, `Sheet.saveAs`: Reading and writing with the delimiter of the extension.

## Theorems

* `Sheet.delimiterOf?_eq_some`: Only a comma and a tab go with an extension.
-/

namespace Worksheet

namespace Sheet

/-- The delimiter that goes with the extension of a path: a comma for `csv`, and a tab for `tsv` and
    `tab`, in any case of letters. -/
def delimiterOf? (path : String) : Option UInt8 :=
  match (Path.extension? path).map (·.map Char.toLower) with
  | some ['c', 's', 'v'] => some 0x2C
  | some ['t', 's', 'v'] | some ['t', 'a', 'b'] => some 0x09
  | _ => none

variable {m : Type → Type} [Monad m]

/-- What it means for a sheet that a file is refused. A directory is opened like a file, so it is
    only refused when its first record is asked for. -/
def refusal (options : ReadOptions) (cause : StorageError) : Error :=
  if cause = .isDirectory then
    if options.hasHeader then .header (.unreadable cause) else .record 1 (.unreadable cause)
  else
    .storage cause

/-- The sheet in a file. -/
def load (storage : Storage m) (path : String) (options : ReadOptions) :
    m (Except Error Sheet) := do
  match ← storage.load path with
  | .error cause => return .error (refusal options cause)
  | .ok bytes => return read options bytes

/-- Write a sheet to a file. -/
def save (storage : Storage m) (path : String) (options : WriteOptions) (s : Sheet) :
    m (Except Error Unit) := do
  return (← storage.save path (s.write options)).mapError .storage

/-- The sheet in a file, with the delimiter of its extension. -/
def loadAs (storage : Storage m) (path : String) (options : ReadOptions) :
    m (Except Error Sheet) :=
  match delimiterOf? path with
  | none => return .error (.unsupported path)
  | some delimiter => load storage path { options with delimiter := delimiter }

/-- Write a sheet to a file, with the delimiter of its extension. -/
def saveAs (storage : Storage m) (path : String) (options : WriteOptions) (s : Sheet) :
    m (Except Error Unit) :=
  match delimiterOf? path with
  | none => return .error (.unsupported path)
  | some delimiter => s.save storage path { options with delimiter := delimiter }

end Sheet

theorem Sheet.delimiterOf?_eq_some {path : String} {b : UInt8}
    (h : delimiterOf? path = some b) : b = 0x2C ∨ b = 0x09 := by
  rw [delimiterOf?] at h
  split at h <;> cases h
  · exact .inl rfl
  · exact .inr rfl
  · exact .inr rfl

end Worksheet
