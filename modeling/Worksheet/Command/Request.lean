import Worksheet.Command.Arguments
import Worksheet.Decimal.Digits
import Worksheet.Recalculation
import Worksheet.Reference.Shift
import Worksheet.Sheet.Basic

/-!
# Requests

What a command line asks for. The first word is the name of the command, and the words behind it are
read as the arguments of that command; each option value is then read as what it stands for.

## Main definitions

* `readInteger`: The whole number, in given bounds, that a text denotes.
* `Request`: What can be asked for.
* `Request.ofWords`: The request that a command line forms.

## Theorems

* `readInteger_bounds`: A number that was read lies in the bounds.
-/

namespace Worksheet

namespace Command

/-- The number that digits denote, if they are digits and there is at least one. -/
def readDigits (ds : List Char) : Option Nat :=
  if ds ≠ [] ∧ ds.all Char.isDigit then some (Decimal.value ds) else none

/-- The number that digits with an optional sign denote. -/
def readSigned : List Char → Option Int
  | '-' :: ds => (readDigits ds).map fun n => -(n : Int)
  | '+' :: ds => (readDigits ds).map Int.ofNat
  | ds => (readDigits ds).map Int.ofNat

/-- The whole number between two bounds that a text denotes. -/
def readInteger (least greatest : Int) (text : String) : Option Int :=
  (readSigned text.toList).filter fun n => least ≤ n ∧ n ≤ greatest

theorem readInteger_bounds {least greatest n : Int} {text : String}
    (h : readInteger least greatest text = some n) : least ≤ n ∧ n ≤ greatest := by
  have := (Option.filter_eq_some_iff.1 h).2
  simpa only [decide_eq_true_eq] using this

/-- A request to recalculate a sheet. -/
structure RecalcRequest where
  /-- The file with the sheet. -/
  input : String
  /-- The file to write to instead of the standard output. -/
  output : Option String
  /-- How the sheet is read. -/
  readOptions : ReadOptions
  /-- How the pass is made. -/
  options : RecalculationOptions
  /-- Whether the report is written as JSON instead of the sheet. -/
  asJson : Bool

/-- What a command line can ask for. -/
inductive Request where
  /-- Recalculate a sheet. -/
  | recalc (request : RecalcRequest)
  /-- Describe a sheet, whose total rows may have a marker. -/
  | info (input : String) (totalMarker : Option String)
  /-- Describe a formula. -/
  | check (formula : String)
  /-- Move the references of a formula. -/
  | shift (formula : String) (movement : Shift)
  /-- Tell the version. -/
  | version
  /-- Tell how the program is used. -/
  | help

/-- The operand of a command that needs one. -/
def Arguments.required (args : Arguments) : Except UsageError String :=
  match args.operand with
  | some word => .ok word
  | none => .error .missingOperand

/-- The path that is the operand of a command; a path is not empty. -/
def Arguments.requiredPath (args : Arguments) : Except UsageError String := do
  let path ← args.required
  if path.isEmpty then .error (.badValue "input" path) else return path

/-- The path that an option gives, if it is given. -/
def Arguments.path? (args : Arguments) (name : String) : Except UsageError (Option String) :=
  match args.value? name with
  | none => .ok none
  | some path => if path.isEmpty then .error (.badValue name path) else .ok (some path)

/-- The whole number between two bounds that an option gives, or a default if it is not given. -/
def Arguments.integerD (args : Arguments) (name : String) (least greatest default : Int) :
    Except UsageError Int :=
  match args.value? name with
  | none => .ok default
  | some value =>
    match readInteger least greatest value with
    | some n => .ok n
    | none => .error (.badValue name value)

namespace Request

/-- The options of the command that recalculates. -/
def recalcSpec : CommandSpec where
  options :=
    [{ name := "output", letter := some 'o' }, { name := "currency" }, { name := "decimals" },
      { name := "total-marker" }, { name := "no-header", hasValue := false },
      { name := "isolate", hasValue := false }, { name := "json", hasValue := false }]

/-- The options of the command that describes a sheet. -/
def infoSpec : CommandSpec where
  options := [{ name := "total-marker" }]

/-- The command that describes a formula has no options. -/
def checkSpec : CommandSpec where
  options := []

/-- The options of the command that moves references. Their values may be negative. -/
def shiftSpec : CommandSpec where
  options :=
    [{ name := "cols" }, { name := "rows" }, { name := "after-col" }, { name := "after-row" }]
  allowsNegatives := true

/-- The greatest number of decimals that can be asked for. -/
def greatestDecimals : Int := 0xFFFFFFFF

/-- The greatest distance that references can be asked to move. -/
def greatestDistance : Int := 0x7FFFFFFFFFFFFFFF

/-- The request to recalculate with given arguments. -/
def ofRecalc (args : Arguments) : Except UsageError Request := do
  let output ← args.path? "output"
  let decimals ← args.integerD "decimals" 0 greatestDecimals 2
  let input ← args.requiredPath
  return recalc
    { input := input
      output := output
      readOptions :=
        { hasHeader := !args.has "no-header", totalMarker := args.value? "total-marker" }
      options :=
        { style := { currency := args.value? "currency", decimals := decimals.toNat }
          shareCache := !args.has "isolate" }
      asJson := args.has "json" }

/-- The request to describe a sheet with given arguments. -/
def ofInfo (args : Arguments) : Except UsageError Request := do
  return info (← args.requiredPath) (args.value? "total-marker")

/-- The request to describe a formula with given arguments. -/
def ofCheck (args : Arguments) : Except UsageError Request := do
  return check (← args.required)

/-- The request to move references with given arguments. -/
def ofShift (args : Arguments) : Except UsageError Request := do
  let distance := fun name default =>
    args.integerD name (-greatestDistance - 1) greatestDistance default
  let cols ← distance "cols" 0
  let rows ← distance "rows" 0
  let afterCol ← distance "after-col" (-1)
  let afterRow ← distance "after-row" (-1)
  let formula ← args.required
  return shift formula
    { cols := cols, rows := rows, afterCol := afterCol, afterRow := afterRow }

/-- The request that the words of a command form. Help is given even where the operand is missing,
    but not behind a wrong value. -/
def ofCommand (spec : CommandSpec) (request : Arguments → Except UsageError Request)
    (words : List String) : Except UsageError Request := do
  match ← spec.read words with
  | .run args => request args
  | .help args =>
    match request args with
    | .ok _ | .error .missingOperand => return help
    | .error e => .error e

/-- The commands with their options and requests. -/
def commands : List (String × CommandSpec × (Arguments → Except UsageError Request)) :=
  [("recalc", recalcSpec, ofRecalc), ("info", infoSpec, ofInfo), ("check", checkSpec, ofCheck),
    ("shift", shiftSpec, ofShift)]

/-- The request for help, possibly about one command. -/
def ofHelp : List String → Except UsageError Request
  | [] => .ok help
  | [word] =>
    if word == "help" || (commands.lookup word).isSome then .ok help
    else .error (.unknownCommand word)
  | _ :: word :: _ => .error (.unknownCommand word)

/-- The request for a word where the name of a command is expected. -/
def ofGeneralWord (word : String) : Except UsageError Request :=
  match word.toList with
  | '-' :: 'V' :: _ => .ok version
  | '-' :: 'h' :: _ => .ok help
  | _ =>
    if word == "--version" then .ok version
    else if word == "--help" then .ok help
    else .error (.unknownCommand word)

/-- The request that a command line forms. -/
def ofWords : List String → Except UsageError Request
  | [] => .error .noCommand
  | "help" :: words => ofHelp words
  | first :: words =>
    match commands.lookup first with
    | some (spec, request) => ofCommand spec request words
    | none => ofGeneralWord first

end Request

end Command

end Worksheet
