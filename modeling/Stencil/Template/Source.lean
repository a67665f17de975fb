import Stencil.Script
import Stencil.Table
import Stencil.Template.Message
import Stencil.Value.Display

/-!
# Data sources

A substitution `$type{key}` takes its value from the data source that is registered under the type
keyword.  A source is a script for every key.  The built-in ones read the scopes, convert the key,
evaluate it as a condition, or look up a message:

* `${key}`, `$attribute{key}`, `$application{key}`, `$session{key}`, `$pageSession{key}`,
  `$requestParameter{key}`, `$templateParam{key}` — a value of a scope;
* `$escape{text}` — the text itself, `$boolean{text}`, `$int{text}` — the text converted;
* `$eval{condition}` — the truth of a condition;
* `$resource{bundle.key,argument,…}` — a message of a resource bundle;
* `$stackTrace{message}` — the message, and after it the evaluations under way.
-/

namespace Stencil.Template

/-- What gives the value of a key. -/
abbrev Source := Text → Script Value

/-! ## Sources -/

/-- The values of a scope. -/
def scopeSource (scope : Scope) : Source := fun key => Script.request (.read scope key)

/-- The key itself. -/
def escapeSource : Source := fun key => pure (.str key)

/-- The truth of the key as a condition. -/
def evalSource : Source := fun key => Script.request (.checkNested key)

/-- Whether the key spells `true`. -/
def booleanSource : Source := fun key => pure (.bool (Text.spells ['t', 'r', 'u', 'e'] key))

/-- The integer that the key spells. -/
def intSource : Source := fun key =>
  match Integer.read key with
  | .ok n => pure (.int n)
  | .error fault => throw (.integer fault)

/-- The record of a message that a bundle lacks. -/
def missingMessage (bundle key : Text) : Record where
  level := .warning
  channel := .sources
  text := "Unable to find key '".toList ++ key ++ "' in resource bundle '".toList ++ bundle ++ ['\'']

/-- A message of a bundle, with arguments put in if the key gives any.  Where the bundle or the
message is missing the whole key is the value. -/
def resourceSource : Source := fun key =>
  match Text.partition '.' key with
  | (_, none) => throw (.bundle (.noBundle key))
  | (bundle, some rest) => do
    match ← Script.request (.read .resourceBundles bundle) with
    | .none => return .str key
    | .dict entries =>
      let name := (Text.pieces ',' rest).headD []
      let arguments := (Text.pieces ',' rest).tail.map Text.trim
      match Entries.get entries name with
      | .none =>
        Script.perform (.report (missingMessage bundle name))
        return .str key
      | message =>
        if arguments.isEmpty then return message
        else
          match formatMessage arguments message.display with
          | .ok t => return .str t
          | .error fault => throw (.integer fault)
    | other => throw (.bundle (.notABundle bundle key other.kindName))

/-- The key and the evaluations under way. -/
def stackTraceSource : Source := fun key => do
  let stack ← Script.request .stack
  return .str (key ++ '\n' :: stack.text)

/-! ## Registries -/

/-- Sources by type keyword. -/
abbrev SourceRegistry := Table Source

/-- What a host may offer for a type keyword. -/
inductive SourceOffer where
  | source (s : Source)
  /-- Something that cannot be called; `shown` is how it is shown. -/
  | notCallable (shown : Text)

/-- Takes up an offer. -/
def SourceRegistry.register (keyword : Text) (offer : SourceOffer) (registry : SourceRegistry) :
    Except Failure SourceRegistry :=
  match offer with
  | .source s => .ok (registry.insert keyword s)
  | .notCallable shown => .error (.sourceOffer keyword shown)

/-- The built-in sources by type keyword. -/
def builtinSources : SourceRegistry :=
  [("", scopeSource .attributes), ("attribute", scopeSource .attributes),
   ("application", scopeSource .application), ("session", scopeSource .session),
   ("pageSession", scopeSource .pageSession),
   ("requestParameter", scopeSource .requestParameters),
   ("templateParam", scopeSource .templateParams), ("escape", escapeSource), ("eval", evalSource),
   ("boolean", booleanSource), ("int", intSource), ("resource", resourceSource),
   ("stackTrace", stackTraceSource)].map fun (keyword, source) => (keyword.toList, source)

end Stencil.Template
