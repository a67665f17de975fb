import Stencil.Condition.Machine
import Stencil.Template.Context
import Stencil.Template.Merge
import Stencil.Template.Token

/-!
# Resolution

A template is resolved in rounds.  A round substitutes the tokens, from the right to the left and so
from the inside to the outside, and then merges the template parameters; if any was merged, the
result is the template of the next round.  A token that is the whole template gives its value as it
is, whatever its kind.

Everything is total.  The rounds of one resolution are counted down from the merge limit.  Scripts
of sources and functions may call back into the resolution: each level of calls answers its requests
through the level below it, and `Context.callBudget` levels are enough for all conditions that the
limit lets be nested, with room for `callLimit` calls by sources of hosts.

## Contents

* `substitute`: one pass over the tokens, given how requests are answered.
* `mergeParams` and `resolveText`: rounds.
* `callBy` and `answer`: the answers to requests, level by level.
* `resolveValue`, `resolveVariables`, `replaceParams`, `checkCondition`: the public operations.
-/

namespace Stencil.Template

open Stencil.Condition

/-! ## Tokens -/

/-- Enters a log record. -/
def report (level : Level) (channel : Channel) (text : Text) : Resolution Unit :=
  modify (Context.enter (.record { level, channel, text }))

/-- The value of the token at a place, where `left` stands before the place (last character first)
and `right` after it, together with the text after the token; nothing where no token is. -/
def tokenValue (handler : Request → Resolution Value) (d : Delimiters) (left right : Text) :
    Resolution (Option (Value × Text)) := do
  match token? d right with
  | none => return none
  | some token =>
    match (← get).sources.find? token.keyword with
    | some source =>
      let value ← (source token.key).run handler
      return some (value, token.after)
    | none =>
      if isForeign token.keyword then
        report .debug .resolver ("Skipping foreign markup '".toList ++ token.keyword ++ ['\''])
        return none
      else throw (.resolution (.unknownType token.keyword (restoreText (left.reverse ++ right))))

/-- Substitutes the tokens of a text, from its end on: `left` is still to be searched (last
character first), `right` has been. -/
def substitute (handler : Request → Resolution Value) (d : Delimiters) :
    Text → Text → Resolution Value
  | [], right => do
    match ← tokenValue handler d [] right with
    | none => return .str right
    | some (value, after) => return if after.isEmpty then value else .str (value.text ++ after)
  | c :: left, right => do
    if d.start.isPrefixOf right && isEscape c then substitute handler d left (escapeMark :: right)
    else
      match ← tokenValue handler d (c :: left) right with
      | none => substitute handler d left (c :: right)
      | some (value, after) => substitute handler d left (c :: (value.text ++ after))

/-! ## Values -/

mutual

/-- Maps the texts of a value: of the value itself, or of the members of a list or a row. -/
def mapTexts (f : Text → Resolution Value) : Value → Resolution Value
  | .str t => f t
  | .list items => Value.list <$> mapAllTexts f items
  | .tuple items => Value.tuple <$> mapAllTexts f items
  | v => pure v

/-- Maps the texts of the values of a list, in order. -/
def mapAllTexts (f : Text → Resolution Value) : List Value → Resolution (List Value)
  | [] => pure []
  | v :: vs => do
    let first ← mapTexts f v
    let rest ← mapAllTexts f vs
    return first :: rest

end

/-! ## Rounds -/

/-- Enters the records of merges into expressions. -/
def reportStages : List Text → Resolution Unit
  | [] => pure ()
  | stage :: stages => do
    report .debug .resolver ("Merged template parameter into '".toList ++ stage ++ ['\''])
    reportStages stages

/-- Merges the template parameters into a text, if there are any.  What has been merged goes on to
the next round; it is a failure if there is none. -/
def mergeParams (next : Option (Text → Resolution Value)) (t : Text) : Resolution Value := do
  let c ← get
  let params := c.scopes.templateParams
  match if params.isEmpty then none else firstBound? params t with
  | none => return .str t
  | some b =>
    match next with
    | none => throw (.resolution (.unsettled (restoreText t) c.mergeLimit))
    | some resolve =>
      if b.before.isEmpty ∧ b.ending = '}' ∧ b.after.isEmpty then mapTexts resolve b.value
      else
        let merged := mergeAll params [] t
        reportStages merged.stages
        match merged.text? with
        | none => throw (.resolution (.unterminated (restoreText t)))
        | some t => resolve t

/-- Merges the template parameters into a value that is a text. -/
def settle (next : Option (Text → Resolution Value)) : Value → Resolution Value
  | .str t => mergeParams next t
  | v => pure v

/-- Resolves a text, with a number of merges left.  Only the first round uses the given marks. -/
def resolveText (handler : Request → Resolution Value) :
    Nat → Delimiters → Text → Resolution Value
  | 0, d, t => do
    let v ← substitute handler d t.reverse []
    settle none v
  | left + 1, d, t => do
    let v ← substitute handler d t.reverse []
    settle (some (resolveText handler left {})) v

/-- The round after some merges are left, if one more is allowed. -/
def nextRound (handler : Request → Resolution Value) : Nat → Option (Text → Resolution Value)
  | 0 => none
  | left + 1 => some (resolveText handler left {})

/-- The merges that a context allows. -/
def Context.mergesAllowed (c : Context) : Nat := c.mergeLimit.toNat

/-- Resolves the texts of a value, with escape marks taken out of the result. -/
def resolveValueBy (handler : Request → Resolution Value) (v : Value) : Resolution Value := do
  let allowed := (← get).mergesAllowed
  restore <$> mapTexts (resolveText handler allowed {}) v

/-- Resolves a text whose tokens have the given marks, with escape marks taken out of the result. -/
def resolveVariablesBy (handler : Request → Resolution Value) (d : Delimiters) (t : Text) :
    Resolution Value := do
  let allowed := (← get).mergesAllowed
  restore <$> resolveText handler allowed d t

/-- Merges the template parameters into a text and resolves the result, with escape marks taken out
of it. -/
def replaceParamsBy (handler : Request → Resolution Value) (t : Text) : Resolution Value := do
  let allowed := (← get).mergesAllowed
  restore <$> mergeParams (nextRound handler allowed) t

/-! ## Conditions -/

/-- Compiles and evaluates a condition. -/
def checkBy (handler : Request → Resolution Value) (condition : Option Text) : Resolution Bool := do
  let functions := (← get).functions
  (Condition.evaluate functions Resolver.ofHost condition).run handler

/-- Does something with the count of conditions under evaluation one higher, if the limit allows
it.  The count is restored in any case. -/
def nested (condition : Text) (x : Resolution Value) : Resolution Value := fun c =>
  if c.mergeLimit ≤ c.evalDepth then
    .error (.resolution (.nestedConditions condition c.mergeLimit)) c
  else
    match x { c with evalDepth := c.evalDepth + 1 } with
    | .ok v c => .ok v { c with evalDepth := c.evalDepth - 1 }
    | .error e c => .error e { c with evalDepth := c.evalDepth - 1 }

/-! ## Requests -/

/-- Answers the requests that need no further call; the others are left to `call`. -/
def answerWith (call : Request → Resolution Value) (request : Request) : Resolution Value :=
  match request with
  | .read scope name => do return (← get).lookUp scope name
  | .assign scope name value => do
    modify fun c => c.assign scope name value
    return .none
  | .note message => do
    modify (Context.enter (.note message))
    return .none
  | .report record => do
    modify (Context.enter (.record record))
    return .none
  | .stack => do return .str (← get).stackText
  | .checkNested condition => nested condition (call request)
  | .resolve _ => call request
  | .resolveMarked _ _ => call request
  | .replaceParams _ => call request
  | .check _ => call request

/-- A call back into the resolution, whose own requests are answered by `handler`. -/
def callBy (handler : Request → Resolution Value) : Request → Resolution Value
  | .resolve value => resolveValueBy handler value
  | .resolveMarked marks t => resolveVariablesBy handler marks t
  | .replaceParams t => replaceParamsBy handler t
  | .check condition => Value.bool <$> checkBy handler (some condition)
  | .checkNested condition => Value.bool <$> checkBy handler (some condition)
  | _ => throw .callDepth

/-- Answers requests with a number of levels of calls left. -/
def answer : Nat → Request → Resolution Value
  | 0, request => answerWith (fun _ => throw .callDepth) request
  | level + 1, request => answerWith (callBy (answer level)) request

/-- The levels of calls kept for sources of hosts that call back. -/
def callLimit : Nat := 400

/-- The levels of calls that a context needs: two for every condition that can be nested, and those
for sources of hosts. -/
def Context.callBudget (c : Context) : Nat :=
  callLimit + 2 * (c.mergeLimit - c.evalDepth).toNat

/-- The answers to the requests of scripts in a context. -/
def handlerOf (c : Context) : Request → Resolution Value := answer c.callBudget

/-! ## Public operations -/

/-- Resolves a text, or the texts of a list or a row. -/
def resolveValue (v : Value) : Resolution Value := do
  resolveValueBy (handlerOf (← get)) v

/-- Resolves a text whose tokens have the given marks. -/
def resolveVariables (d : Delimiters) (t : Text) : Resolution Value := do
  resolveVariablesBy (handlerOf (← get)) d t

/-- Merges template parameters into a text and resolves the result. -/
def replaceParams (t : Text) : Resolution Value := do
  replaceParamsBy (handlerOf (← get)) t

theorem run_resolveVariables (d : Delimiters) (t : Text) (c : Context) :
    (resolveVariables d t).run c =
      (restore <$> resolveText (handlerOf c) c.mergesAllowed d t).run c := rfl

theorem run_replaceParams (t : Text) (c : Context) :
    (replaceParams t).run c =
      (restore <$> mergeParams (nextRound (handlerOf c) c.mergesAllowed) t).run c := rfl

/-- Merges template parameters into a text that may be missing.  Nothing becomes of nothing. -/
def replaceParamsOf : Option Text → Resolution Value
  | none => pure .none
  | some t => replaceParams t

/-- The value of a key at the data source of a type keyword, if there is such a source. -/
def sourceValue (keyword key : Text) : Resolution (Option Value) := do
  let c ← get
  match c.sources.find? keyword with
  | none => return none
  | some source =>
    let value ← (source key).run (handlerOf c)
    return some value

/-- The program of a condition. -/
def compileCondition (condition : Option Text) : Resolution Program := do
  match Program.compile (← get).functions condition with
  | .ok p => return p
  | .error e => throw e

/-- The condition and its program, with operands resolved. -/
def showProgram (p : Program) : Resolution Text := do
  (p.text Resolver.ofHost).run (handlerOf (← get))

/-- The truth of a compiled condition. -/
def runProgram (p : Program) : Resolution Bool := do
  (p.evaluate Resolver.ofHost).run (handlerOf (← get))

/-- The truth of a condition. -/
def checkCondition (condition : Option Text) : Resolution Bool := do
  checkBy (handlerOf (← get)) condition

end Stencil.Template
