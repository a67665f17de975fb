import Stencil.Settings
import Stencil.Yaml.Document

/-!
# Scope files

A scope file is a document that maps the names of scopes to mappings, the values of the scopes.

## Contents

* `ScopeFault` and its wording.
* `Scopes.ofDocument`, the scopes that a document gives.
* `Context.load` and `Context.ofSettings`: contexts with scopes from a file.  Their journals start
  with the records of how they came about.
-/

namespace Stencil

/-- Why scopes are not loaded from a file. -/
inductive ScopeFault where
  | file (path : Text) (fault : FileFault)
  | document (fault : Yaml.Fault)
  | notMapping (path : Text)
  | unknownSection (path : Text) (name : Value)
  | sectionNotMapping (path name : Text)
  deriving Repr

namespace Template

/-! ## Sections -/

/-- The sections of a scope file and the scopes that they fill. -/
def sections : List (String × Scope) :=
  [("attributes", .attributes), ("session", .session), ("application", .application),
   ("pageSession", .pageSession), ("requestParameters", .requestParameters),
   ("templateParams", .templateParams), ("resourceBundles", .resourceBundles)]

/-- The name of a section and the scope that it fills. -/
def section? : Value → Option (Text × Scope)
  | .str name => (sections.lookup (String.ofList name)).map fun scope => (name, scope)
  | _ => none

/-- Scopes with the sections of a document filled in, and the names of the sections. -/
def Scopes.fill (path : Text) : Scopes → Entries → Except ScopeFault (Scopes × List Text)
  | scopes, [] => .ok (scopes, [])
  | scopes, (key, value) :: rest =>
    match section? key with
    | none => .error (.unknownSection path key)
    | some (name, scope) => do
      let entries ← match value with
        | .none => .ok []
        | .dict entries => .ok entries
        | _ => .error (.sectionNotMapping path name)
      let (scopes, names) ← fill path (scopes.set scope entries) rest
      return (scopes, name :: names)

/-- The scopes that a document gives, and the names of its sections.  A document of nothing gives
none. -/
def Scopes.ofDocument (path : Text) : Value → Except ScopeFault (Scopes × List Text)
  | .none => .ok ({}, [])
  | .dict entries => fill path {} entries
  | _ => .error (.notMapping path)

end Template

/-! ## Wording -/

/-- The wording of a fault of a document. -/
def Yaml.Fault.message : Yaml.Fault → String
  | .malformed => "malformed document"
  | .integer fault => fault.message

/-- The wording of a scope fault. -/
def ScopeFault.message : ScopeFault → String
  | .file path fault => fault.message path
  | .document fault => fault.message
  | .notMapping path =>
    let path := String.ofList path
    s!"Scope file {path} must contain a mapping"
  | .unknownSection path name =>
    let path := String.ofList path
    let name := String.ofList name.display
    let known := ", ".intercalate (Template.sections.map Prod.fst)
    s!"Unknown section '{name}' in scope file {path}. Expected one of: {known}"
  | .sectionNotMapping path name =>
    let path := String.ofList path
    let name := String.ofList name
    s!"Section '{name}' in scope file {path} must be a mapping"

/-! ## Loading -/

namespace Template.Context

/-- The records of the registrations that every context starts from. -/
def registrations : List Record :=
  (builtinSources.names.map fun name =>
    { level := .debug, channel := .sources
      text := "Registered data source '".toList ++ name ++ ['\''] }) ++
  (Condition.builtinFunctions.names.map fun name =>
    { level := .debug, channel := .functions
      text := "Registered expression function '".toList ++ name ++ ['\''] })

/-- A context with the given scopes and limit, made after some records were written. -/
def start (scopes : Scopes) (mergeLimit : Int) (before : List Record) : Context :=
  { scopes, mergeLimit, journal := (before ++ registrations).map Event.record }

/-- The record of a scope file that has been loaded. -/
def loadedRecord (path : Text) (names : List Text) : Record where
  level := .debug
  channel := .settings
  text := "Loaded scope file ".toList ++ path ++ " with sections: ".toList ++
    Text.join [',', ' '] names

/-- A context with the scopes of a file. -/
def load (folder : Folder) (path : Text) (mergeLimit : Int) : Except ScopeFault Context := do
  let path := normalPath path
  let content ← (folder path).mapError (ScopeFault.file path)
  let value ← (Yaml.read content).mapError ScopeFault.document
  let (scopes, names) ← Scopes.ofDocument path value
  return start scopes mergeLimit [loadedRecord path names]

/-- A context as the settings say. -/
def ofSettings (folder : Folder) (settings : Settings) : Except ScopeFault Context :=
  match settings.scopeFile with
  | some path => load folder path settings.mergeLimit
  | none => .ok (start {} settings.mergeLimit [])

end Template.Context

end Stencil
