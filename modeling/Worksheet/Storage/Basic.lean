import Worksheet.Text.Utf8

/-!
# Storage

Where files are kept is left open: a storage says, in some monad, how a file is loaded and how it is
saved. A file that cannot be used is refused with a reason and the number that the system has for
it.

## Main definitions

* `StorageError`: Why a file is refused.
* `StorageError.missing`, `StorageError.notDirectory`, `StorageError.isDirectory`: The reasons that
  paths can give.
* `Storage`: How files are loaded and saved.
-/

namespace Worksheet

/-- Why a file is refused. -/
structure StorageError where
  /-- The reason in words. -/
  reason : String
  /-- The number that the system has for the reason. -/
  code : Nat
  deriving DecidableEq, Repr

namespace StorageError

/-- The file or its directory does not exist. -/
def missing : StorageError := ⟨"No such file or directory", 2⟩

/-- A file stands on the path where a directory should be. -/
def notDirectory : StorageError := ⟨"Not a directory", 20⟩

/-- The path names a directory. -/
def isDirectory : StorageError := ⟨"Is a directory", 21⟩

/-- The text shown for the error. -/
def message (e : StorageError) : String := e.reason ++ " (os error " ++ Nat.repr e.code ++ ")"

end StorageError

/-- How files are loaded and saved under their paths. -/
structure Storage (m : Type → Type) where
  /-- The bytes of a file. -/
  load : String → m (Except StorageError Text.Bytes)
  /-- Make or replace a file. -/
  save : String → Text.Bytes → m (Except StorageError Unit)

end Worksheet
