import Worksheet.Delimited.Decoding
import Worksheet.Storage.Basic

/-!
# Errors of sheets

Why a sheet cannot be read or written: the file is refused, its name does not tell how it is
delimited, or what is in it cannot be read as text.

## Main definitions

* `Sheet.RecordError`: Why a record cannot be read.
* `Sheet.Error`: The causes.
* `Sheet.Error.message`: The text shown for a cause.
* `Sheet.Error.chain`: The same, and behind it the text shown for what caused it.
-/

namespace Worksheet

namespace Sheet

/-- Why a record cannot be read. -/
inductive RecordError where
  /-- Its bytes are no text. -/
  | misencoded (cause : Delimited.Misencoded)
  /-- Its bytes cannot be had. -/
  | unreadable (cause : StorageError)
  deriving DecidableEq, Repr

/-- The text shown for the error. -/
def RecordError.message : RecordError → String
  | misencoded cause => cause.message
  | unreadable cause => cause.message

/-- Why a sheet cannot be read or written. -/
inductive Error where
  /-- The file is refused. -/
  | storage (cause : StorageError)
  /-- A record of data cannot be read; such records count from one. -/
  | record (number : Nat) (cause : RecordError)
  /-- The header cannot be read. -/
  | header (cause : RecordError)
  /-- The extension of the file is not known. -/
  | unsupported (path : String)
  deriving DecidableEq, Repr

/-- The text shown for an error. -/
def Error.message : Error → String
  | storage cause => "IO error: " ++ cause.message
  | record number cause => "CSV error in record " ++ Nat.repr number ++ ": " ++ cause.message
  | header cause => "CSV error: " ++ cause.message
  | unsupported path => "Unsupported file format: " ++ path

/-- The text shown for an error, and then the text shown for its own cause. -/
def Error.chain (e : Error) : List String :=
  match e with
  | storage cause => [e.message, cause.message]
  | record _ cause | header cause => [e.message, cause.message]
  | unsupported _ => [e.message]

end Sheet

end Worksheet
