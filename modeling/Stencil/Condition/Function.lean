import Stencil.Script
import Stencil.Table
import Stencil.Value.Display

/-!
# Functions and operands of conditions

An operand is a truth value, a raw text that is resolved when its value is needed, the text of a
computed number, or the call of a function.  A function is given the raw texts of its arguments
and resolves those it wants.

## Contents

* `Resolver`: how raw texts become values, if they do at all.
* `FunctionKind` and `Call`; `Factory` and the registry of factories by name.
* `Operand`, with its truth, its text and its spelling.
-/

namespace Stencil.Condition

/-! ## Resolvers -/

/-- How raw texts become values.  Without a resolver a raw text is its own value. -/
abbrev Resolver := Option (Text → Script Value)

/-- The value of a raw text. -/
def Resolver.resolve (resolver : Resolver) (raw : Text) : Script Value :=
  match resolver with
  | none => pure (.str raw)
  | some f => f raw

/-- The resolver that leaves the resolution to the host. -/
def Resolver.ofHost : Resolver := some fun raw => Script.request (.resolve (.str raw))

/-! ## Functions -/

/-- A kind of function: its class name, the name its calls carry if they do not take the name they
are registered under, and what a call means. -/
structure FunctionKind where
  className : Text
  presetName : Text := []
  /-- The truth of a call with the given arguments. -/
  truth : Resolver → List Text → Script Bool
  /-- The value of a call, which is its truth unless the function says otherwise. -/
  value : Resolver → List Text → Script Value := fun resolver arguments =>
    Value.bool <$> truth resolver arguments

/-- The call of a function. -/
structure Call where
  name : Text
  kind : FunctionKind
  arguments : List Text

/-- The call as it is written. -/
def Call.spelling (call : Call) : Text :=
  call.name ++ '(' :: Text.join [','] call.arguments ++ [')']

/-- The value of the argument at a place, or nothing where there is none. -/
def resolveArgument (resolver : Resolver) (arguments : List Text) (place : Nat) : Script Value :=
  match arguments[place]? with
  | none => pure .none
  | some raw => resolver.resolve raw

/-! ## Registries -/

/-- What makes the calls of a registered name. -/
inductive Factory where
  /-- Calls of a kind of function. -/
  | calls (kind : FunctionKind)
  /-- Things of another kind, which is found out when one is made. -/
  | foreign (kind : Text)

/-- Functions by name. -/
abbrev FunctionRegistry := Table Factory

/-- What a host may offer for a name. -/
inductive FunctionOffer where
  /-- Nothing: the name is to be forgotten. -/
  | nothing
  | factory (f : Factory)
  /-- A class of something else. -/
  | foreignClass (name : Text)
  /-- Something that cannot make anything; `shown` is how it is shown. -/
  | notCallable (shown : Text)

namespace FunctionRegistry

/-- Takes up an offer.  Forgetting a name is always possible; apart from that a name is needed. -/
def register (name : Text) (offer : FunctionOffer) (registry : FunctionRegistry) :
    Except RegistrationFault FunctionRegistry :=
  match offer with
  | .nothing => .ok (registry.erase name)
  | .factory f => if name.isEmpty then .error .emptyName else .ok (registry.insert name f)
  | .foreignClass className =>
    if name.isEmpty then .error .emptyName else .error (.foreignClass className)
  | .notCallable shown =>
    if name.isEmpty then .error .emptyName else .error (.notCallable name shown)

/-- The function of a name together with the name that its calls carry. -/
def create (registry : FunctionRegistry) (name : Text) :
    Except RegistrationFault (Option (Text × FunctionKind)) :=
  match registry.find? name with
  | none => .ok none
  | some (.foreign kind) => .error (.foreignProduct name kind)
  | some (.calls kind) =>
    .ok (some (if kind.presetName.isEmpty then name else kind.presetName, kind))

end FunctionRegistry

/-! ## Operands -/

/-- An operand. -/
inductive Operand where
  | literal (b : Bool)
  /-- A raw text, resolved when needed. -/
  | value (raw : Text)
  /-- The text of a number that an operator has computed; it is not resolved again. -/
  | computed (t : Text)
  | call (c : Call)

namespace Operand

/-- The truth of an operand. -/
def truth (resolver : Resolver) : Operand → Script Bool
  | .literal b => pure b
  | .value raw => Value.truth <$> resolver.resolve raw
  | .computed t => pure (Value.isTrueText t)
  | .call c => c.kind.truth resolver c.arguments

/-- The text of an operand. -/
def text (resolver : Resolver) : Operand → Script Text
  | .literal b => pure (Value.boolText b)
  | .value raw => Value.text <$> resolver.resolve raw
  | .computed t => pure t
  | .call c => Value.text <$> c.kind.value resolver c.arguments

/-- An operand as it is written out: a raw text by what it resolves to, a function as its call. -/
def spelling (resolver : Resolver) : Operand → Script Text
  | .literal b => pure (Value.boolText b)
  | .value raw => Value.text <$> resolver.resolve raw
  | .computed t => pure t
  | .call c => pure c.spelling

end Operand

end Stencil.Condition
