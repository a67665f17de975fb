import Stencil.Condition.Function
import Stencil.Pair.Read

/-!
# Built-in functions

The functions that conditions can always call:

* `empty(value)` — the value is missing, the empty text or an empty collection;
* `equals(a,b)` — the texts are the same;
* `contains(value,part)` — membership in a collection, or occurrence in a text;
* `startsWith(value,start)` and `endsWith(value,end)`;
* `oneOf(value,options=['a','b'])` — the text is one of the options;
* `hasParam(name)` — a template parameter of that name is bound.

An argument between quotes stands for itself, any other is resolved.
-/

namespace Stencil.Condition

/-! ## Arguments -/

/-- The text between the quotes of a quoted text. -/
def unquote? (raw : Text) : Option Text :=
  match raw with
  | [] => none
  | c :: rest =>
    if Text.isQuote c ∧ rest.getLast? = some c then some rest.dropLast else none

/-- The value of the argument at a place. -/
def argument (resolver : Resolver) (arguments : List Text) (place : Nat) : Script Value :=
  match arguments[place]? with
  | none => pure .none
  | some raw =>
    match unquote? raw with
    | some t => pure (.str t)
    | none => resolver.resolve raw

/-- The text of the argument at a place. -/
def textArgument (resolver : Resolver) (arguments : List Text) (place : Nat) : Script Text :=
  Value.text <$> argument resolver arguments place

/-- An argument written as a name/value pair. -/
def pairOf (raw : Text) : Script Pair :=
  match Input.readQuotedPair (Input.ofText raw) with
  | .ok pair _ => pure pair
  | .error fault _ => throw (.input fault)

/-! ## Functions -/

/-- Whether a value is missing or has nothing in it. -/
def isEmptyValue : Value → Bool
  | .none => true
  | .list items => items.isEmpty
  | .tuple items => items.isEmpty
  | .set items => items.isEmpty
  | .dict entries => entries.isEmpty
  | v => v.text.isEmpty

/-- Whether a text is a member of a collection, a key of a mapping, or a part of another text. -/
def isPartOf (part : Text) : Value → Bool
  | .list items => (items.map Value.text).contains part
  | .tuple items => (items.map Value.text).contains part
  | .set items => (items.map Value.text).contains part
  | .dict entries => (Entries.find? entries part).isSome
  | v => Text.occursIn part v.text

/-- The options that the value of a pair names. -/
def optionsOf : Value → List Text
  | .str t => [t]
  | .list items => items.map Value.display
  | .tuple items => items.map Value.display
  | _ => []

/-- Whether a text is what one of the options resolves to; they are resolved in turn until one
is. -/
def isOption (resolver : Resolver) (t : Text) : List Text → Script Bool
  | [] => pure false
  | raw :: options => do
    let value ← resolver.resolve raw
    if t = value.text then return true else isOption resolver t options

/-- The function `empty`. -/
def emptyFunction : FunctionKind where
  className := "Empty".toList
  truth resolver arguments := isEmptyValue <$> argument resolver arguments 0

/-- The function `equals`. -/
def equalsFunction : FunctionKind where
  className := "Equals".toList
  truth resolver arguments := do
    let a ← textArgument resolver arguments 0
    let b ← textArgument resolver arguments 1
    return a == b

/-- The function `contains`. -/
def containsFunction : FunctionKind where
  className := "Contains".toList
  truth resolver arguments := do
    let value ← argument resolver arguments 0
    let part ← textArgument resolver arguments 1
    return isPartOf part value

/-- The function `startsWith`. -/
def startsWithFunction : FunctionKind where
  className := "StartsWith".toList
  truth resolver arguments := do
    let t ← textArgument resolver arguments 0
    let start ← textArgument resolver arguments 1
    return start.isPrefixOf t

/-- The function `endsWith`. -/
def endsWithFunction : FunctionKind where
  className := "EndsWith".toList
  truth resolver arguments := do
    let t ← textArgument resolver arguments 0
    let ending ← textArgument resolver arguments 1
    return ending.isSuffixOf t

/-- The function `oneOf`. -/
def oneOfFunction : FunctionKind where
  className := "OneOf".toList
  truth resolver arguments := do
    match arguments with
    | _ :: second :: _ =>
      let t ← textArgument resolver arguments 0
      let pair ← pairOf second
      isOption resolver t (optionsOf pair.value)
    | _ => return false

/-- The function `hasParam`.  Without a resolver no parameter is bound. -/
def hasParamFunction : FunctionKind where
  className := "HasParam".toList
  truth resolver arguments := do
    if resolver.isNone then return false
    let name ← textArgument resolver arguments 0
    if name.isEmpty then return false
    let value ← resolver.resolve ("$templateParam\x7b".toList ++ name ++ ['}'])
    return value.isSome

/-- The built-in functions by name. -/
def builtinFunctions : FunctionRegistry :=
  [("empty", emptyFunction), ("equals", equalsFunction), ("contains", containsFunction),
   ("startsWith", startsWithFunction), ("endsWith", endsWithFunction), ("oneOf", oneOfFunction),
   ("hasParam", hasParamFunction)].map fun (name, kind) => (name.toList, .calls kind)

end Stencil.Condition
