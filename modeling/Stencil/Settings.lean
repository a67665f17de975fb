import Stencil.Folder
import Stencil.Template.Context
import Stencil.Text.LetterCase

/-!
# Settings

What the environment can set for a program that resolves templates on its own: the limit on
nesting, the file that the scopes are loaded from, and the threshold of the log.
-/

namespace Stencil

/-- What a program that resolves templates on its own can be told. -/
structure Settings where
  mergeLimit : Int := Template.defaultMergeLimit
  scopeFile : Option Text := none
  /-- The name of the threshold for log records. -/
  logLevel : Text := "WARNING".toList
  deriving DecidableEq, Repr

/-- Why settings are refused. -/
inductive SettingsFault where
  | limitNotInteger (given : Text)
  deriving DecidableEq, Repr

/-- The variable that sets the limit on nesting. -/
def limitVariable : String := "LAYOUTEL_MAX_MERGE_DEPTH"

/-- The variable that names the file of the scopes. -/
def scopeFileVariable : String := "LAYOUTEL_SCOPE_FILE"

/-- The variable that sets the threshold of the log. -/
def logLevelVariable : String := "LAYOUTEL_LOG_LEVEL"

/-- The wording of a refusal. -/
def SettingsFault.message : SettingsFault → String
  | .limitNotInteger given =>
    let given := String.ofList given
    s!"{limitVariable} must be an integer, got '{given}'"

/-- Environments: the texts of the variables that are set. -/
abbrev Environment := String → Option Text

/-- The text of a variable, which counts as not set when it is empty. -/
def Environment.given? (env : Environment) (name : String) : Option Text :=
  (env name).filter fun t => !t.isEmpty

namespace Settings

/-- The settings of an environment. -/
def ofEnvironment (env : Environment) : Except SettingsFault Settings := do
  let mergeLimit ← match env.given? limitVariable with
    | none => .ok Template.defaultMergeLimit
    | some t =>
      match Integer.read t with
      | .ok n => .ok n
      | .error _ => .error (.limitNotInteger t)
  return { mergeLimit
           scopeFile := (env.given? scopeFileVariable).map normalPath
           logLevel := ((env.given? logLevelVariable).map Text.upper).getD "WARNING".toList }

end Settings

end Stencil
