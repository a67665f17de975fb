import Stencil.CommandLine.Run

/-!
# The program

Reads the environment and the files that the command line can need, runs the command line, and
writes out what it comes to.
-/

namespace Stencil.Main

/-- What reading a file gives. -/
def readFile (path : Text) : IO (Except FileFault Text) :=
  try
    return .ok (← IO.FS.readFile (String.ofList path)).toList
  catch e =>
    match e with
    | .inappropriateType .. => return .error .isAFolder
    | _ => return .error .missing

/-- The variables that settings are read from. -/
def readEnvironment : IO Environment := do
  let mut given : List (String × Text) := []
  for name in [limitVariable, scopeFileVariable, logLevelVariable] do
    match ← IO.getEnv name with
    | some t => given := (name, t.toList) :: given
    | none => pure ()
  let found := given
  return fun name => List.lookup name found

/-- The folder of the files at some paths. -/
def readFolder (paths : List Text) : IO Folder := do
  let mut answers : Table (Except FileFault Text) := []
  for path in paths do
    answers := answers.insert path (← readFile path)
  let found := answers
  return fun path => (found.find? path).getD (.error .missing)

end Stencil.Main

/-- The entry point. -/
def main (args : List String) : IO UInt32 := do
  let arguments := args.map String.toList
  let env ← Stencil.Main.readEnvironment
  let folder ← Stencil.Main.readFolder (Stencil.CommandLine.filesWanted env arguments)
  let outcome := Stencil.CommandLine.run folder env arguments
  IO.print (String.ofList outcome.output)
  IO.eprint (String.ofList outcome.errors)
  match outcome.abort with
  | some a => IO.eprintln a.message
  | none => pure ()
  return outcome.exitCode.toUInt32
