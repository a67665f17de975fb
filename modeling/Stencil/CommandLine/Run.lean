import Stencil.CommandLine.Arguments
import Stencil.Log
import Stencil.Pair.Read
import Stencil.Scope.File
import Stencil.Template.Resolve

/-!
# Running a command line

What a command line does, given the environment and the folder it runs in, is an outcome: an exit
code and what is written to the two outputs.  Faults of what a command works on are reported in a
line; others abort the program.

## Contents

* `Abort` and `Outcome`.
* The commands one by one.
* `run`.
-/

namespace Stencil.CommandLine

open Stencil.Template

/-! ## Outcomes -/

/-- Why a program stops without a report. -/
inductive Abort where
  | settings (fault : SettingsFault)
  | unknownLevel (name : Text)
  | malformedDocument
  | failure (f : Failure)
  deriving DecidableEq, Repr

/-- The wording of an abort. -/
def Abort.message : Abort → String
  | .settings fault => fault.message
  | .unknownLevel name => "Unknown level: " ++ String.ofList (Text.quoted name)
  | .malformedDocument => Yaml.Fault.message .malformed
  | .failure f => f.message

/-- What running a command line comes to. -/
structure Outcome where
  exitCode : Nat := 0
  output : Text := []
  errors : Text := []
  abort : Option Abort := none
  deriving DecidableEq, Repr

namespace Outcome

/-- The exit code of a fault. -/
def faultCode : Nat := 1

/-- The exit code of a command line that is not understood. -/
def usageCode : Nat := 2

/-- The line that reports a fault. -/
def errorLine (message : String) : Text := "Error: ".toList ++ message.toList ++ ['\n']

/-- The outcome of a reported fault, after some log lines. -/
def fault (log : Text) (message : String) : Outcome :=
  { exitCode := faultCode, errors := log ++ errorLine message }

/-- The outcome of a command line that is not understood. -/
def usage (f : UsageFault) : Outcome :=
  { exitCode := usageCode, errors := errorLine f.message }

/-- The outcome of an abort, after some log lines. -/
def aborted (log : Text) (a : Abort) : Outcome :=
  { exitCode := faultCode, errors := log, abort := some a }

end Outcome

/-! ## Templates -/

/-- Whether a failure aborts the program. -/
def aborts : Failure → Bool
  | .pattern .countTooLarge => true
  | .sourceOffer _ _ => true
  | .callDepth => true
  | _ => false

/-- The outcome of writing the text of a resolution. -/
def outcomeOf (threshold : Nat) (x : Resolution Text) (c : Context) : Outcome :=
  match x c with
  | .ok t c => { output := t, errors := logLines threshold c.records }
  | .error f c =>
    let log := logLines threshold c.records
    if aborts f then .aborted log (.failure f) else .fault log f.message

/-- The outcome of what a context is needed for. -/
def withContext (threshold : Nat) (context : Except ScopeFault Context) (x : Resolution Text) :
    Outcome :=
  match context with
  | .ok c => outcomeOf threshold x c
  | .error (.document .malformed) => .aborted [] .malformedDocument
  | .error f => .fault [] ("Unable to load scope file: " ++ f.message)

/-- The context of a command: with the scopes of its own file or else as the settings say. -/
def contextFor (folder : Folder) (settings : Settings) (scopeFile : Option Text) :
    Except ScopeFault Context :=
  match scopeFile with
  | some path => Context.load folder path settings.mergeLimit
  | none => Context.ofSettings folder settings

/-- The truth of a condition as a line and, before it, its program if that is wanted. -/
def evaluation (condition : Text) (explain : Bool) : Resolution Text := do
  let p ← compileCondition (some condition)
  let truth ← runProgram p
  let shown ← if explain then (· ++ ['\n']) <$> showProgram p else pure []
  return shown ++ (Value.bool truth).text ++ ['\n']

/-- The text of a resolved template as a line. -/
def resolution (t : Text) : Resolution Text := do
  let value ← resolveValue (.str t)
  return value.text ++ ['\n']

/-! ## Pairs -/

/-- The lines that describe a pair. -/
def pairLines (p : Pair) : Text :=
  let value := match p.value with
    | .list items => "value (list): ".toList ++ Text.join [',', ' '] (items.map Value.display)
    | .tuple items => "value (array): ".toList ++ Text.join [',', ' '] (items.map Value.display)
    | v => "value: ".toList ++ v.display
  let target := match p.target with
    | none => []
    | some t => "target: ".toList ++ t ++ ['\n']
  "name: ".toList ++ p.name ++ '\n' :: value ++ '\n' :: target

/-- The outcome of describing a text as a pair. -/
def describePair (t : Text) (defaultName : Option Text) (requireQuotes : Bool) : Outcome :=
  match Input.readPair defaultName requireQuotes ['_', '.'] (Input.ofText t) with
  | .ok p _ => { output := pairLines p }
  | .error f _ => .fault [] f.message

/-! ## Command lines -/

/-- Runs a command. -/
def Command.run (folder : Folder) (settings : Settings) (threshold : Nat) : Command → Outcome
  | .evaluate condition scopeFile explain =>
    withContext threshold (contextFor folder settings scopeFile) (evaluation condition explain)
  | .resolve t scopeFile =>
    withContext threshold (contextFor folder settings scopeFile) (resolution t)
  | .pair t defaultName requireQuotes => describePair t defaultName requireQuotes

/-- Runs a command line.  The settings are read once the command is known, and the arguments of the
command after that. -/
def run (folder : Folder) (env : Environment) (arguments : List Text) : Outcome :=
  match Opening.read arguments with
  | .error f => .usage f
  | .ok o =>
    match Settings.ofEnvironment env with
    | .error f => .aborted [] (.settings f)
    | .ok settings =>
      let level := o.logLevel.getD settings.logLevel
      match threshold? level with
      | none => .aborted [] (.unknownLevel level)
      | some threshold =>
        match o.kind.command folder o.arguments with
        | .error f => .usage f
        | .ok command => command.run folder settings threshold

/-- The paths of the files that running a command line can read. -/
def filesWanted (env : Environment) (arguments : List Text) : List Text :=
  let named := arguments ++ arguments.filterMap fun t => (Text.partition '=' t).2
  (named ++ (env.given? scopeFileVariable).toList).flatMap fun path => [path, normalPath path]

end Stencil.CommandLine
