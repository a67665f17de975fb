import Stencil.Condition.Builtin
import Stencil.Template.Source

/-!
# Contexts

What templates and conditions are resolved against: the scopes, the registered sources and
functions, and the limit on nesting.  A context also counts the conditions under evaluation and
keeps a journal of what has been noted and logged, so that a resolution is a function from context
to context.
-/

namespace Stencil.Template

open Stencil.Condition

/-! ## Scopes -/

/-- The values of the scopes. -/
structure Scopes where
  attributes : Entries := []
  session : Entries := []
  application : Entries := []
  pageSession : Entries := []
  requestParameters : Entries := []
  templateParams : Entries := []
  resourceBundles : Entries := []
  deriving Repr, Inhabited

namespace Scopes

/-- The values of one scope. -/
def get (s : Scopes) : Scope → Entries
  | .attributes => s.attributes
  | .session => s.session
  | .application => s.application
  | .pageSession => s.pageSession
  | .requestParameters => s.requestParameters
  | .templateParams => s.templateParams
  | .resourceBundles => s.resourceBundles

/-- Replaces the values of one scope. -/
def set (s : Scopes) (scope : Scope) (entries : Entries) : Scopes :=
  match scope with
  | .attributes => { s with attributes := entries }
  | .session => { s with session := entries }
  | .application => { s with application := entries }
  | .pageSession => { s with pageSession := entries }
  | .requestParameters => { s with requestParameters := entries }
  | .templateParams => { s with templateParams := entries }
  | .resourceBundles => { s with resourceBundles := entries }

/-- Replacing one scope changes no other. -/
theorem get_set (s : Scopes) (a b : Scope) (entries : Entries) :
    (s.set a entries).get b = if a = b then entries else s.get b := by
  cases a <;> cases b <;> rfl

end Scopes

/-! ## Journals -/

/-- An entry of the journal. -/
inductive Event where
  /-- A note that a host's source or function has left. -/
  | note (message : Text)
  | record (r : Record)
  deriving Repr

/-! ## Contexts -/

/-- The limit on nesting unless a host says otherwise. -/
def defaultMergeLimit : Int := 32

/-- A context. -/
structure Context where
  scopes : Scopes := {}
  sources : SourceRegistry := builtinSources
  functions : FunctionRegistry := builtinFunctions
  /-- The limit on merges of template parameters, and on conditions within conditions. -/
  mergeLimit : Int := defaultMergeLimit
  /-- The number of conditions under evaluation on behalf of templates. -/
  evalDepth : Nat := 0
  /-- What has been noted and logged, oldest first. -/
  journal : List Event := []

/-- Resolution within a context. -/
abbrev Resolution := EStateM Failure Context

namespace Context

/-- Adds an entry to the journal. -/
def enter (e : Event) (c : Context) : Context := { c with journal := c.journal ++ [e] }

/-- The value of a name in a scope. -/
def lookUp (c : Context) (scope : Scope) (name : Text) : Value := (c.scopes.get scope).get name

/-- Gives a name in a scope a value. -/
def assign (c : Context) (scope : Scope) (name : Text) (value : Value) : Context :=
  { c with scopes := c.scopes.set scope (Entries.insert (.str name) value (c.scopes.get scope)) }

/-- Removes a name from a scope. -/
def unassign (c : Context) (scope : Scope) (name : Text) : Context :=
  { c with scopes := c.scopes.set scope (Entries.erase name (c.scopes.get scope)) }

/-- The notes of the journal. -/
def notes (c : Context) : List Text :=
  c.journal.filterMap fun
    | .note message => some message
    | .record _ => none

/-- The log records of the journal. -/
def records (c : Context) : List Record :=
  c.journal.filterMap fun
    | .note _ => none
    | .record r => some r

/-- The evaluations under way, innermost first, one line for each. -/
def stackText (c : Context) : Text :=
  go (c.evalDepth + 1)
where
  /-- The lines of the innermost `n` evaluations. -/
  go : Nat → Text
    | 0 => []
    | n + 1 => "  File \"template\", evaluation ".toList ++ Nat.toDigits 10 n ++ '\n' :: go n

end Context

end Stencil.Template
