/-!
# Command line arguments

The words behind the name of a command are options and one operand. An option is written with two
dashes and its name, some also with one dash and a letter. Its value is attached with an equals
sign, directly behind the letter, or is the next word. Two dashes alone end the options.

A word with a dash in front is an option, so it is no value and no operand, unless it is a single
dash or a negative number in a command that takes negative numbers. No option may be given twice.

## Main definitions

* `OptionSpec`: The name of an option, its letter, and whether it has a value.
* `CommandSpec`: The options of a command.
* `UsageError`, `UsageError.message`: What is wrong with the words.
* `CommandSpec.word`: What a single word is.
* `Arguments`: The operand and the options found.
* `CommandSpec.read`: The arguments that words form.

## Theorems

* `Arguments.addOption_eq_error_iff`: Only an option that was already given is refused.
-/

namespace Worksheet

namespace Command

/-- An option that a command has. -/
structure OptionSpec where
  /-- The name behind two dashes. -/
  name : String
  /-- The letter behind one dash, if the option has one. -/
  letter : Option Char := none
  /-- Whether the option has a value. -/
  hasValue : Bool := true
  deriving DecidableEq, Repr

/-- What a command understands. -/
structure CommandSpec where
  /-- Its options. -/
  options : List OptionSpec
  /-- Whether negative numbers are values. -/
  allowsNegatives : Bool := false

/-- What is wrong with the words of a command line. -/
inductive UsageError where
  /-- There is no option with this name. -/
  | unknownOption (word : String)
  /-- There is no command with this name. -/
  | unknownCommand (word : String)
  /-- No command is given. -/
  | noCommand
  /-- An option has no value though it needs one. -/
  | missingValue (name : String)
  /-- An option has a value though it has no use for it. -/
  | unneededValue (name : String)
  /-- An option is given twice. -/
  | repeated (name : String)
  /-- The value of an option is not of the right form. -/
  | badValue (name value : String)
  /-- There is no operand. -/
  | missingOperand
  /-- There is another operand behind the first. -/
  | extraOperand (word : String)
  deriving DecidableEq, Repr

/-- The text shown for a usage error. -/
def UsageError.message : UsageError → String
  | unknownOption word => "unexpected argument '" ++ word ++ "' found"
  | unknownCommand word => "unrecognized subcommand '" ++ word ++ "'"
  | noCommand => "a subcommand is required"
  | missingValue name => "a value is required for '--" ++ name ++ "' but none was supplied"
  | unneededValue name => "unexpected value for '--" ++ name ++ "' found"
  | repeated name => "the argument '--" ++ name ++ "' cannot be used multiple times"
  | badValue name value => "invalid value '" ++ value ++ "' for '" ++ name ++ "'"
  | missingOperand => "a required argument was not provided"
  | extraOperand word => "unexpected argument '" ++ word ++ "' found"

/-- What a word is. -/
inductive Word where
  /-- An operand or a value. -/
  | plain (text : String)
  /-- An option, possibly with a value attached. -/
  | option (spec : OptionSpec) (attached : Option String)
  /-- A question for help. -/
  | help
  /-- The end of the options. -/
  | separator

/-- Digits, possibly with a point and behind it an exponent, as they go on behind a first digit. -/
def isNumberRest (hasPoint hasExponent : Bool) : List Char → Bool
  | [] => true
  | c :: rest =>
    if c.isDigit then isNumberRest hasPoint hasExponent rest
    else if c = '.' then !hasPoint && !hasExponent && isNumberRest true hasExponent rest
    else if c = 'e' || c = 'E' then !hasExponent && !rest.isEmpty && isNumberRest hasPoint true rest
    else false

/-- Whether characters have the form of a negative number. -/
def isNegativeNumber : List Char → Bool
  | '-' :: c :: rest => c.isDigit && isNumberRest false false rest
  | _ => false

namespace CommandSpec

/-- The option for a word with two dashes, which are left out here. -/
def longWord (spec : CommandSpec) (body : List Char) : Except UsageError Word :=
  let name := String.ofList (body.takeWhile (· ≠ '='))
  let attached :=
    match body.dropWhile (· ≠ '=') with
    | [] => none
    | _ :: value => some (String.ofList value)
  match spec.options.find? (·.name == name) with
  | some option => .ok (.option option attached)
  | none =>
    if name == "help" && attached.isNone then .ok .help
    else .error (.unknownOption ("--" ++ name))

/-- The option for a word with one dash, which is left out here. -/
def shortWord (spec : CommandSpec) (letter : Char) (behind : List Char) : Except UsageError Word :=
  let attached :=
    match behind with
    | [] => none
    | '=' :: value => some (String.ofList value)
    | value => some (String.ofList value)
  match spec.options.find? (·.letter == some letter) with
  | some option => .ok (.option option attached)
  | none =>
    if letter = 'h' then .ok .help
    else .error (.unknownOption (String.ofList ['-', letter]))

/-- What a word is, where a value is looked for or not. -/
def word (spec : CommandSpec) (wantsValue : Bool) (text : String) : Except UsageError Word :=
  match text.toList with
  | ['-', '-'] => .ok .separator
  | '-' :: '-' :: body => spec.longWord body
  | '-' :: letter :: behind =>
    if spec.allowsNegatives && wantsValue && isNegativeNumber ('-' :: letter :: behind) then
      .ok (.plain text)
    else
      spec.shortWord letter behind
  | _ => .ok (.plain text)

/-- Whether a word can be the value of the option before it. -/
def isValue (spec : CommandSpec) (text : String) : Bool :=
  match spec.word true text with
  | .ok (.plain _) => true
  | _ => false

end CommandSpec

/-- The operand and the options found on a command line. -/
structure Arguments where
  /-- The operand. -/
  operand : Option String := none
  /-- The names of the options with their values, those without one with an empty text. -/
  options : List (String × String) := []
  deriving DecidableEq, Repr

namespace Arguments

/-- The value of an option, if it is given. -/
def value? (args : Arguments) (name : String) : Option String := args.options.lookup name

/-- Whether an option is given. -/
def has (args : Arguments) (name : String) : Bool := (args.value? name).isSome

/-- The arguments with another operand. -/
def addOperand (args : Arguments) (word : String) : Except UsageError Arguments :=
  match args.operand with
  | none => .ok { args with operand := some word }
  | some _ => .error (.extraOperand word)

/-- The arguments with another option. -/
def addOption (args : Arguments) (name value : String) : Except UsageError Arguments :=
  if args.has name then .error (.repeated name)
  else .ok { args with options := (name, value) :: args.options }

theorem addOption_eq_error_iff {args : Arguments} {name value : String} {e : UsageError} :
    args.addOption name value = .error e ↔ args.has name = true ∧ e = .repeated name := by
  rw [addOption]
  split
  · rename_i h
    simp only [h, true_and, Except.error.injEq]
    exact ⟨fun he => he.symm, fun he => he.symm⟩
  · rename_i h
    simp [h]

end Arguments

/-- What the words of a command ask for: to run it, or for help. -/
inductive Answer where
  /-- To run the command with these arguments. -/
  | run (args : Arguments)
  /-- For help, behind these arguments. -/
  | help (args : Arguments)

/-- The arguments that the words from some point on add to those found before. -/
def CommandSpec.readFrom (spec : CommandSpec) (args : Arguments) :
    List String → Except UsageError Answer
  | [] => .ok (.run args)
  | text :: rest =>
    match spec.word args.operand.isNone text with
    | .error e => .error e
    | .ok .help => .ok (.help args)
    | .ok .separator => (rest.foldlM Arguments.addOperand args).map .run
    | .ok (.plain operand) =>
      match args.addOperand operand with
      | .error e => .error e
      | .ok more => spec.readFrom more rest
    | .ok (.option option attached) =>
      match option.hasValue, attached, rest with
      | true, none, [] => .error (.missingValue option.name)
      | true, none, value :: later =>
        if spec.isValue value then
          match args.addOption option.name value with
          | .error e => .error e
          | .ok more => spec.readFrom more later
        else
          .error (.missingValue option.name)
      | true, some value, rest =>
        match args.addOption option.name value with
        | .error e => .error e
        | .ok more => spec.readFrom more rest
      | false, some _, _ => .error (.unneededValue option.name)
      | false, none, rest =>
        match args.addOption option.name "" with
        | .error e => .error e
        | .ok more => spec.readFrom more rest

/-- The arguments that words form. -/
def CommandSpec.read (spec : CommandSpec) (words : List String) :
    Except UsageError Answer :=
  spec.readFrom {} words

end Command

end Worksheet
