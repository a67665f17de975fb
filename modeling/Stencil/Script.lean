import Stencil.Failure
import Stencil.Value.Basic

/-!
# Scripts

What data sources and functions do is written as a script: a finite tree of requests to the host,
each with a continuation for every answer, that ends in a value or a failure.  A script says
nothing about how requests are answered, so two scripts that are equal make the same requests in
the same order whatever the answers are, and a failing answer can be caught or passed on.

## Contents

* `Scope`, `Level`, `Channel`, `Record` and `Template.Delimiters`: what requests speak of.
* `Request` and `Script`, with its monad.
* `Script.run`, the one interpretation: the requests are answered by a given handler, in any state.
-/

namespace Stencil

/-! ## What requests speak of -/

/-- The named stores of values that templates can refer to. -/
inductive Scope where
  | attributes
  | session
  | application
  | pageSession
  | requestParameters
  | templateParams
  | resourceBundles
  deriving DecidableEq, Repr

/-- How much a log record matters. -/
inductive Level where
  | debug
  | info
  | warning
  | error
  deriving DecidableEq, Repr

/-- The part of the library that a log record comes from. -/
inductive Channel where
  | functions
  | sources
  | resolver
  | settings
  deriving DecidableEq, Repr

/-- A log record. -/
structure Record where
  level : Level
  channel : Channel
  text : Text
  deriving DecidableEq, Repr

/-- The marks of tokens. -/
structure Template.Delimiters where
  start : Text := ['$']
  opening : Text := ['{']
  closing : Text := ['}']
  deriving DecidableEq, Repr

/-! ## Requests -/

/-- What a script can ask for.  Every answer is a value; a request made for its effect is answered
by nothing. -/
inductive Request where
  /-- Resolve the templates within a value. -/
  | resolve (value : Value)
  /-- Resolve a text whose tokens have the given marks. -/
  | resolveMarked (marks : Template.Delimiters) (text : Text)
  /-- Merge the template parameters into a text. -/
  | replaceParams (text : Text)
  /-- Check a condition. -/
  | check (condition : Text)
  /-- Check a condition on behalf of a template, one level deeper. -/
  | checkNested (condition : Text)
  /-- The value of a name in a scope. -/
  | read (scope : Scope) (name : Text)
  /-- Give a name in a scope a value. -/
  | assign (scope : Scope) (name : Text) (value : Value)
  /-- A description of the evaluations under way. -/
  | stack
  /-- Leave a note for the host. -/
  | note (message : Text)
  /-- Write a log record. -/
  | report (record : Record)
  deriving Repr

/-- Whether a request is a call back into the resolution, one that counts no condition. -/
def Request.IsCall : Request → Prop
  | .resolve _ | .resolveMarked _ _ | .replaceParams _ | .check _ => True
  | _ => False

/-! ## Scripts -/

/-- A finite tree of requests that ends in a result. -/
inductive Script (α : Type) where
  | done (result : Except Failure α)
  | ask (request : Request) (next : Except Failure Value → Script α)

namespace Script

variable {α β γ : Type}

/-- Goes on with the value of a script; a failure ends the whole. -/
def bind : Script α → (α → Script β) → Script β
  | .done (.ok a), f => f a
  | .done (.error e), _ => .done (.error e)
  | .ask request next, f => .ask request fun answer => (next answer).bind f

instance : Monad Script where
  pure a := .done (.ok a)
  bind := bind

instance : MonadExcept Failure Script where
  throw e := .done (.error e)
  tryCatch x handler := go x handler
where
  /-- Goes on with the failure of a script. -/
  go {α : Type} : Script α → (Failure → Script α) → Script α
    | .done (.ok a), _ => .done (.ok a)
    | .done (.error e), handler => handler e
    | .ask request next, handler => .ask request fun answer => go (next answer) handler

/-- Makes a request; a failing answer is the script's failure. -/
def request (q : Request) : Script Value := .ask q .done

/-- Makes a request for its effect. -/
def perform (q : Request) : Script Unit := request q >>= fun _ => pure ()

/-- The script that ends in a result without a request. -/
def ofExcept (result : Except Failure α) : Script α := .done result

/-! ## Laws -/

theorem pure_eq (a : α) : (pure a : Script α) = .done (.ok a) := rfl

theorem bind_eq (x : Script α) (f : α → Script β) : x >>= f = x.bind f := rfl

theorem bind_done_ok (a : α) (f : α → Script β) : (Script.done (.ok a)).bind f = f a := rfl

theorem bind_done_error (e : Failure) (f : α → Script β) :
    (Script.done (.error e)).bind f = .done (.error e) := rfl

theorem bind_assoc (x : Script α) (f : α → Script β) (g : β → Script γ) :
    (x.bind f).bind g = x.bind fun a => (f a).bind g := by
  induction x with
  | done result =>
    cases result with
    | ok a => rfl
    | error e => rfl
  | ask request next ih =>
    simp only [bind]
    congr 1
    funext answer
    exact ih answer

theorem bind_pure (x : Script α) : (x.bind fun a => .done (.ok a)) = x := by
  induction x with
  | done result =>
    cases result with
    | ok a => rfl
    | error e => rfl
  | ask request next ih =>
    simp only [bind]
    congr 1
    funext answer
    exact ih answer

instance : LawfulMonad Script :=
  LawfulMonad.mk' Script
    (fun x => bind_pure x)
    (fun _ _ => rfl)
    (fun x f g => bind_assoc x f g)

/-- Nothing follows a failure. -/
@[simp] theorem throw_bind (e : Failure) (f : α → Script β) :
    (throw e : Script α) >>= f = throw e := rfl

@[simp] theorem map_throw (e : Failure) (f : α → β) :
    f <$> (throw e : Script α) = throw e := rfl

/-! ## Running -/

/-- Runs a script, the requests being answered by a handler. -/
def run {σ : Type} (handler : Request → EStateM Failure σ Value) :
    Script α → EStateM Failure σ α
  | .done (.ok a) => pure a
  | .done (.error e) => throw e
  | .ask request next => fun state =>
    match handler request state with
    | .ok value state => (next (.ok value)).run handler state
    | .error e state => (next (.error e)).run handler state

/-- Running a script that goes on is running its first part and then the rest. -/
theorem run_bind {σ : Type} (handler : Request → EStateM Failure σ Value) (x : Script α)
    (f : α → Script β) :
    (x.bind f).run handler = x.run handler >>= fun a => (f a).run handler := by
  induction x with
  | done result =>
    cases result with
    | ok a => rfl
    | error e => rfl
  | ask request next ih =>
    funext state
    simp only [bind, run]
    cases h : handler request state with
    | ok value state' =>
      simp only [ih]
      simp [Bind.bind, EStateM.bind, h]
    | error e state' =>
      simp only [ih]
      simp [Bind.bind, EStateM.bind, h]

end Script

end Stencil
