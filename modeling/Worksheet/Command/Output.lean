import Worksheet.Text.Utf8

/-!
# Output of a command

What a command leaves behind: what it writes to its two streams, and a number that tells whether it
succeeded. A failure is told on the error stream with what was being done and what caused it.

## Main definitions

* `Output`: The two streams and the exit code.
* `Failure`: What was being done, and the chain of causes.
* `Failure.report`: The text shown for a failure.

## Theorems

* `Output.code_withFailure`: A failure shows in the exit code.
-/

namespace Worksheet

namespace Command

/-- What a command leaves behind. -/
structure Output where
  /-- The exit code; zero for success. -/
  code : Nat := 0
  /-- What is written to the standard output. -/
  out : Text.Bytes := []
  /-- What is written to the error stream. -/
  err : String := ""
  deriving DecidableEq, Repr

/-- A text with a line break behind it. -/
def line (text : String) : String := text ++ "\n"

/-- Several lines. -/
def lines (texts : List String) : String := String.join (texts.map line)

/-- Why a command failed. -/
structure Failure where
  /-- What was being done. -/
  context : String
  /-- What caused the failure, and what caused that in turn. -/
  causes : List String
  deriving DecidableEq, Repr

/-- A text whose lines after the first are indented. -/
def indented (indent text : String) : String :=
  String.ofList (text.toList.flatMap fun c => if c = '\n' then c :: indent.toList else [c])

/-- The lines for causes from a number on. -/
def numberedCauses (number : Nat) : List String → List String
  | [] => []
  | cause :: rest =>
    ("    " ++ Nat.repr number ++ ": " ++ indented "       " cause) ::
      numberedCauses (number + 1) rest

/-- The text shown for a failure. Several causes are numbered. -/
def Failure.report (f : Failure) : String :=
  let causes :=
    match f.causes with
    | [] => []
    | [cause] => ["", "Caused by:", "    " ++ indented "    " cause]
    | several => "" :: "Caused by:" :: numberedCauses 0 several
  lines (("Error: " ++ f.context) :: causes)

namespace Output

/-- An output of text only. -/
def ofText (text : String) : Output := { out := Text.encode text }

/-- The output after a failure. -/
def withFailure (o : Output) (f : Failure) : Output :=
  { o with code := 1, err := o.err ++ f.report }

theorem code_withFailure (o : Output) (f : Failure) : (o.withFailure f).code = 1 := rfl

end Output

end Command

end Worksheet
