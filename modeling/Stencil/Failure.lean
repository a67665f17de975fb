import Stencil.Input.Fault
import Stencil.Number.Integer
import Stencil.Pattern.Fault

/-!
# Failures

Why a resolution or an evaluation comes to nothing.  Each construct has a type of causes of its
own; `Failure` gathers them, and `Failure.message` is the wording of each.
-/

namespace Stencil

/-! ## Causes by construct -/

/-- Why the source of a condition is not compiled. -/
inductive SyntaxFault where
  /-- A function name is not followed by an opening parenthesis. -/
  | missingArguments (name : Text)
  /-- The arguments of a function are not closed. -/
  | unclosedArguments (name : Text)
  deriving DecidableEq, Repr

/-- Why the evaluation of a compiled condition stops. -/
inductive EvaluationFault where
  /-- An operator lacks an operand. -/
  | underflow
  /-- There are fewer operands than places for them. -/
  | missingOperand
  /-- Operands remain when the code is at its end. -/
  | leftover
  /-- The pattern of a comparison is none. -/
  | badPattern (pattern : Text) (cause : Pattern.Cause) (position : Option Nat)
  /-- An operand of an arithmetic operator is no integer. -/
  | notInteger (text : Text)
  | divisionByZero
  | moduloByZero
  deriving DecidableEq, Repr

/-- Why the substitutions of a template come to nothing. -/
inductive ResolutionFault where
  /-- No data source has the type keyword, and the text is no foreign markup. -/
  | unknownType (keyword template : Text)
  /-- Merging parameters has not come to an end within the limit. -/
  | unsettled (template : Text) (limit : Int)
  /-- A merged expression has no end. -/
  | unterminated (template : Text)
  /-- Conditions are nested beyond the limit. -/
  | nestedConditions (condition : Text) (limit : Int)
  deriving DecidableEq, Repr

/-- Why a function is not registered or not created. -/
inductive RegistrationFault where
  | emptyName
  /-- A class is offered whose instances are no functions. -/
  | foreignClass (name : Text)
  /-- What is offered cannot make functions at all. -/
  | notCallable (name shown : Text)
  /-- What a maker makes is no function. -/
  | foreignProduct (name kind : Text)
  deriving DecidableEq, Repr

/-- Why a message is not found in a resource bundle. -/
inductive BundleFault where
  /-- The key does not name a bundle. -/
  | noBundle (key : Text)
  /-- What is there under the bundle's name is no bundle. -/
  | notABundle (bundle key : Text) (kind : String)
  deriving DecidableEq, Repr

/-! ## Failures -/

/-- Why a resolution or an evaluation comes to nothing. -/
inductive Failure where
  | input (fault : InputFault)
  | compilation (fault : SyntaxFault) (source : Text)
  | evaluation (fault : EvaluationFault) (source code : Text)
  | resolution (fault : ResolutionFault)
  | registration (fault : RegistrationFault)
  | integer (fault : IntegerFault)
  | bundle (fault : BundleFault)
  /-- A pattern that no message of a condition speaks of. -/
  | pattern (fault : Pattern.Fault)
  /-- A character that stands for no instruction. -/
  | instruction (symbol : Char)
  /-- What is offered as a data source cannot be called. -/
  | sourceOffer (keyword shown : Text)
  /-- A host's source or function gives up with a message of its own. -/
  | host (message : Text)
  /-- Host sources have called back into the resolution too deeply. -/
  | callDepth
  deriving DecidableEq, Repr

/-! ## Wording -/

/-- The wording of a fault of a condition's source. -/
def SyntaxFault.message (source : Text) : SyntaxFault → String
  | .missingArguments name =>
    let name := String.ofList name
    let source := String.ofList source
    s!"Function '{name}' is expected to have a '(' immediately following it. Equation: '{source}'."
  | .unclosedArguments name =>
    let name := String.ofList name
    let source := String.ofList source
    s!"Function '{name}' has an unterminated argument list. Equation: '{source}'."

/-- What the wording of an evaluation fault adds to the condition. -/
def EvaluationFault.detail : EvaluationFault → String
  | .underflow => "."
  | .missingOperand => " -- found function marker without corresponding function."
  | .leftover => " -- values left on the stack."
  | .badPattern pattern cause position =>
    let fault := (Pattern.Fault.malformed cause position).message pattern
    let pattern := String.ofList pattern
    s!" -- invalid pattern '{pattern}': {fault}"
  | .notInteger text =>
    let text := String.ofList text
    s!" -- '{text}' is not an integer."
  | .divisionByZero => " -- division by zero."
  | .moduloByZero => " -- modulo by zero."

/-- The wording of a resolution fault. -/
def ResolutionFault.message : ResolutionFault → String
  | .unknownType keyword template =>
    let keyword := String.ofList keyword
    let template := String.ofList template
    s!"Invalid type '{keyword}' in attribute value: '{template}'."
  | .unsettled template limit =>
    let template := String.ofList template
    s!"Template parameters in '{template}' did not resolve within {limit} merges."
  | .unterminated template =>
    let template := String.ofList template
    s!"EL has unterminated #\x7b\x7d expression: ({template})"
  | .nestedConditions condition limit =>
    let condition := String.ofList condition
    s!"Condition '{condition}' did not resolve within {limit} nested evaluations."

/-- The wording of a registration fault. -/
def RegistrationFault.message : RegistrationFault → String
  | .emptyName => "Function name must not be empty"
  | .foreignClass name =>
    let name := String.ofList name
    s!"'{name}' must extend 'NamedFunction'"
  | .notCallable name shown =>
    let name := String.ofList name
    let shown := String.ofList shown
    s!"Factory for function '{name}' is not callable: {shown}"
  | .foreignProduct name kind =>
    let name := String.ofList name
    let kind := String.ofList kind
    s!"Factory for function '{name}' produced '{kind}', expected a NamedFunction"

/-- The wording of a bundle fault. -/
def BundleFault.message : BundleFault → String
  | .noBundle key =>
    let key := String.ofList key
    s!"'{key}' is not in format: \"[bundleID].[bundleKey]\"!"
  | .notABundle bundle key kind =>
    let bundle := String.ofList bundle
    let key := String.ofList key
    s!"\"{bundle}\" in: \"$resource\x7b{key}\x7d\" did not resolve to a resource bundle! Found: \"{kind}\" instead."

/-- The wording of a failure. -/
def Failure.message : Failure → String
  | .input fault => fault.message
  | .compilation fault source => fault.message source
  | .evaluation fault source code =>
    let source := String.ofList source
    let code := String.ofList code
    let detail := fault.detail
    s!"Unable to evaluate: '{source} = {code}'{detail}"
  | .resolution fault => fault.message
  | .registration fault => fault.message
  | .integer fault => fault.message
  | .bundle fault => fault.message
  | .pattern fault => fault.message []
  | .instruction symbol => String.ofList (Text.quoted [symbol]) ++ " is not a valid Instruction"
  | .sourceOffer keyword shown =>
    let keyword := String.ofList keyword
    let shown := String.ofList shown
    s!"Data source for '{keyword}' is not callable: {shown}"
  | .host message => String.ofList message
  | .callDepth => "maximum recursion depth exceeded"

end Stencil
