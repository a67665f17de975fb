import Stencil.Folder
import Stencil.Text.LetterCase

/-!
# Arguments of a command line

A command line names a command after the options that all commands share:

* `eval [--scope-file FILE] [--explain] CONDITION`
* `resolve [--scope-file FILE] TEXT`
* `nvp [--default-name NAME] [--require-quotes | --no-require-quotes] TEXT`

## Contents

* `UsageFault`, and `Arguments.split`, which separates options from the rest.
* `Command`, and the reading of one.
-/

namespace Stencil.CommandLine

/-! ## Faults -/

/-- Why a command line is not understood. -/
inductive UsageFault where
  | unknownOption (name : Text)
  | missingValue (name : Text)
  | unwantedValue (name : Text)
  | badChoice (name value : Text)
  | missingCommand
  | unknownCommand (name : Text)
  | missingArgument
  | extraArgument (given : Text)
  | noFile (path : Text)
  deriving DecidableEq, Repr

/-- The wording of a usage fault. -/
def UsageFault.message : UsageFault → String
  | .unknownOption name => "No such option: " ++ String.ofList name
  | .missingValue name => "Option '" ++ String.ofList name ++ "' requires an argument."
  | .unwantedValue name => "Option '" ++ String.ofList name ++ "' does not take a value."
  | .badChoice name value =>
    "Invalid value for '" ++ String.ofList name ++ "': " ++ String.ofList (Text.quoted value)
  | .missingCommand => "Missing command."
  | .unknownCommand name => "No such command " ++ String.ofList (Text.quoted name) ++ "."
  | .missingArgument => "Missing argument."
  | .extraArgument given => "Got unexpected extra argument (" ++ String.ofList given ++ ")"
  | .noFile path => "File " ++ String.ofList (Text.quoted path) ++ " cannot be read."

/-! ## Options -/

/-- Options by name, each with whether it takes a value. -/
abbrev OptionTable := List (String × Bool)

/-- Arguments taken apart: the options in the order given, with their values if they take one, and
the other arguments. -/
structure Arguments where
  options : List (String × Text) := []
  others : List Text := []
  deriving DecidableEq, Repr

namespace Arguments

/-- Whether an argument is an option. -/
def isOption (argument : Text) : Bool := argument.head? == some '-' && argument != ['-']

/-- Puts an option in front. -/
def withOption (name : String) (value : Text) (a : Arguments) : Arguments :=
  { a with options := (name, value) :: a.options }

/-- Puts another argument in front. -/
def withOther (argument : Text) (a : Arguments) : Arguments :=
  { a with others := argument :: a.others }

/-- Takes arguments apart.  The value of an option is the rest of the same argument after an equals
sign, or the next argument.  Two dashes end the options; so does the first other argument, unless
options may be `interspersed`. -/
def split (table : OptionTable) (interspersed : Bool) : List Text → Except UsageFault Arguments
  | [] => .ok {}
  | argument :: rest =>
    if argument = ['-', '-'] then .ok { others := rest }
    else if isOption argument then
      let (name, value?) := Text.partition '=' argument
      match table.lookup (String.ofList name), value? with
      | none, _ => .error (.unknownOption name)
      | some false, none => (split table interspersed rest).map (withOption (String.ofList name) [])
      | some false, some _ => .error (.unwantedValue name)
      | some true, some value =>
        (split table interspersed rest).map (withOption (String.ofList name) value)
      | some true, none =>
        match rest with
        | [] => .error (.missingValue name)
        | value :: rest =>
          (split table interspersed rest).map (withOption (String.ofList name) value)
    else if interspersed then (split table interspersed rest).map (withOther argument)
    else .ok { others := argument :: rest }

/-- The value of an option; the last one given counts. -/
def value? (a : Arguments) (name : String) : Option Text := a.options.reverse.lookup name

/-- The only argument that is no option. -/
def only (a : Arguments) : Except UsageFault Text :=
  match a.others with
  | [] => .error .missingArgument
  | [argument] => .ok argument
  | _ :: extra :: _ => .error (.extraArgument extra)

end Arguments

/-! ## Commands -/

/-- A command, with what it is to work on. -/
inductive Command where
  | evaluate (condition : Text) (scopeFile : Option Text) (explain : Bool)
  | resolve (text : Text) (scopeFile : Option Text)
  | pair (text : Text) (defaultName : Option Text) (requireQuotes : Bool)
  deriving DecidableEq, Repr

/-- The kinds of commands. -/
inductive CommandKind where
  | evaluate
  | resolve
  | pair
  deriving DecidableEq, Repr

/-- The kinds of commands by name. -/
def commandKinds : List (String × CommandKind) :=
  [("eval", .evaluate), ("resolve", .resolve), ("nvp", .pair)]

/-- The options of a kind of command. -/
def CommandKind.options : CommandKind → OptionTable
  | .evaluate => [("--scope-file", true), ("--explain", false)]
  | .resolve => [("--scope-file", true)]
  | .pair =>
    [("--default-name", true), ("--require-quotes", false), ("--no-require-quotes", false)]

/-- The scope file among arguments, which must be there. -/
def scopeFileOf (folder : Folder) (a : Arguments) : Except UsageFault (Option Text) :=
  match a.value? "--scope-file" with
  | none => .ok none
  | some path =>
    match folder path with
    | .ok _ => .ok (some path)
    | .error _ => .error (.noFile path)

/-- Whether values must be quoted; the last of the two options counts. -/
def quotesOf (a : Arguments) : Bool :=
  let given := a.options.reverse.find? fun option =>
    option.1 == "--require-quotes" || option.1 == "--no-require-quotes"
  given.all fun option => option.1 == "--require-quotes"

/-- The command of a kind with the given arguments. -/
def CommandKind.command (kind : CommandKind) (folder : Folder) (arguments : List Text) :
    Except UsageFault Command := do
  let a ← Arguments.split kind.options true arguments
  match kind with
  | .evaluate =>
    let scopeFile ← scopeFileOf folder a
    return .evaluate (← a.only) scopeFile (a.value? "--explain").isSome
  | .resolve =>
    let scopeFile ← scopeFileOf folder a
    return .resolve (← a.only) scopeFile
  | .pair => return .pair (← a.only) (a.value? "--default-name") (quotesOf a)

/-! ## Shared options -/

/-- The names of log levels that a command line may give. -/
def levelChoices : List String := ["DEBUG", "INFO", "WARNING", "ERROR"]

/-- The log level among arguments, in any case of letters. -/
def logLevelOf (a : Arguments) : Except UsageFault (Option Text) :=
  match a.value? "--log-level" with
  | none => .ok none
  | some value =>
    let level := value.map Char.toUpper
    if levelChoices.contains (String.ofList level) then .ok (some level)
    else .error (.badChoice "--log-level".toList value)

/-- What is read of a command line before the settings are: the log level, the kind of command, and
its own arguments. -/
structure Opening where
  logLevel : Option Text
  kind : CommandKind
  arguments : List Text
  deriving DecidableEq, Repr

/-- Reads a command line as far as the name of the command. -/
def Opening.read (arguments : List Text) : Except UsageFault Opening := do
  let a ← Arguments.split [("--log-level", true)] false arguments
  let logLevel ← logLevelOf a
  match a.others with
  | [] => .error .missingCommand
  | name :: arguments =>
    match commandKinds.lookup (String.ofList name) with
    | none => .error (.unknownCommand name)
    | some kind => return { logLevel, kind, arguments }

end Stencil.CommandLine
