import Worksheet.Storage.Basic
import Worksheet.Storage.Path

/-!
# Folders

A folder holds files in memory under their paths, in the order in which they were made. Directories
are not kept for themselves: a directory exists while a file is in it, and a file can be made only
in a directory that exists.

## Main definitions

* `Folder`: Files under their paths.
* `Folder.file?`: The bytes of a file.
* `Folder.write`: The folder with a file made or replaced.
* `Folder.read`, `Folder.obstacle?`: Whether a file can be loaded from a path, and made under it.
* `Folder.storage`: The folder as a storage.

## Theorems

* `Folder.file?_write_self`: A file that was made can be found.
* `Folder.file?_write_of_ne`: All other files stay as they are.
-/

namespace Worksheet

/-- Files under their paths, in the order in which they were made. -/
structure Folder where
  /-- The components of each path, and the bytes of the file. -/
  files : List (List (List Char) × Text.Bytes) := []
  deriving Inhabited

namespace Folder

/-- The bytes of the file under a path. -/
def file? (folder : Folder) (path : List (List Char)) : Option Text.Bytes :=
  (folder.files.find? (·.1 = path)).map Prod.snd

/-- Whether a directory exists: the folder itself does, and each directory with a file in it. -/
def hasDirectory (folder : Folder) (path : List (List Char)) : Bool :=
  path = [] || folder.files.any fun (name, _) => path.isPrefixOf name.dropLast

/-- Whether a file stands on the way to a path, where a directory should be. -/
def isBlocked (folder : Folder) (path : List (List Char)) : Bool :=
  folder.files.any fun (name, _) => name.isPrefixOf path.dropLast

/-- Files with one of them made or replaced. -/
def writeFile (path : List (List Char)) (bytes : Text.Bytes) :
    List (List (List Char) × Text.Bytes) → List (List (List Char) × Text.Bytes)
  | [] => [(path, bytes)]
  | (name, old) :: rest =>
    if name = path then (path, bytes) :: rest else (name, old) :: writeFile path bytes rest

/-- The folder with a file made or replaced. -/
def write (folder : Folder) (path : List (List Char)) (bytes : Text.Bytes) : Folder where
  files := writeFile path bytes folder.files

/-- The bytes of the file under a path, or why there is none. -/
def read (folder : Folder) (path : String) : Except StorageError Text.Bytes :=
  let components := Path.components path
  if path.isEmpty then .error .missing
  else if folder.hasDirectory components then .error .isDirectory
  else if folder.isBlocked components then .error .notDirectory
  else
    match folder.file? components with
    | none => .error .missing
    | some bytes => if Path.asksForDirectory path then .error .notDirectory else .ok bytes

/-- Why no file can be made under a path, if none can. -/
def obstacle? (folder : Folder) (path : String) : Option StorageError :=
  let components := Path.components path
  if path.isEmpty then some .missing
  else if folder.hasDirectory components then some .isDirectory
  else if folder.isBlocked components then some .notDirectory
  else if !folder.hasDirectory components.dropLast then some .missing
  else if Path.asksForDirectory path then some .isDirectory
  else none

/-- The folder as a storage. -/
def storage : Storage (StateM Folder) where
  load path := return (← get).read path
  save path bytes := do
    match (← get).obstacle? path with
    | some cause => return .error cause
    | none =>
      modify (·.write (Path.components path) bytes)
      return .ok ()

theorem file?_write_self (folder : Folder) (path : List (List Char)) (bytes : Text.Bytes) :
    (folder.write path bytes).file? path = some bytes := by
  rw [write, file?]
  induction folder.files with
  | nil => simp [writeFile]
  | cons entry rest ih =>
    rw [writeFile]
    split
    · simp
    · rename_i hne
      rw [List.find?_cons_of_neg (by simpa using hne)]
      exact ih

theorem file?_write_of_ne (folder : Folder) {path other : List (List Char)} (bytes : Text.Bytes)
    (h : other ≠ path) : (folder.write path bytes).file? other = folder.file? other := by
  have hpath : ¬ path = other := fun he => h he.symm
  rw [write, file?, file?]
  induction folder.files with
  | nil => simp [writeFile, hpath]
  | cons entry rest ih =>
    rw [writeFile]
    split
    · rename_i heq
      rw [List.find?_cons_of_neg (by simpa using hpath),
        List.find?_cons_of_neg (by simpa [heq] using hpath)]
    · -- The entry in front is kept, so it is found on both sides or skipped on both.
      by_cases hentry : entry.1 = other
      · rw [List.find?_cons_of_pos (by simpa using hentry),
          List.find?_cons_of_pos (by simpa using hentry)]
      · rw [List.find?_cons_of_neg (by simpa using hentry),
          List.find?_cons_of_neg (by simpa using hentry)]
        exact ih

end Folder

end Worksheet
