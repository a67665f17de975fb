import Stencil.Table
import Stencil.Text.Quoted

/-!
# Folders

A folder says what reading the file at a path gives: its text, or why there is none.

## Contents

* `FileFault` and its wording.
* `normalPath`, the shortest spelling of a path.
* `Folder`, and the folder that holds the files of a table.
-/

namespace Stencil

/-- Why the file at a path is not read. -/
inductive FileFault where
  | missing
  | notAFolder
  | isAFolder
  deriving DecidableEq, Repr

/-- The wording of a fault at a path. -/
def FileFault.message (path : Text) (fault : FileFault) : String :=
  let shown := String.ofList (Text.quoted path)
  match fault with
  | .missing => s!"[Errno 2] No such file or directory: {shown}"
  | .notAFolder => s!"[Errno 20] Not a directory: {shown}"
  | .isAFolder => s!"[Errno 21] Is a directory: {shown}"

/-- What reading the file at a path gives. -/
abbrev Folder := Text → Except FileFault Text

/-! ## Paths -/

/-- The root that a path starts from: none, one slash, or exactly two. -/
def rootOf (path : Text) : Text :=
  match path.takeWhile (· == '/') with
  | [] => []
  | ['/', '/'] => ['/', '/']
  | _ => ['/']

/-- Whether a step of a path stays where it is. -/
def isStay (step : Text) : Bool := step == [] || step == ['.']

/-- The path without steps that stay; a path of no other steps is `.`. -/
def normalPath (path : Text) : Text :=
  match rootOf path ++ Text.join ['/'] ((Text.pieces '/' path).filter (!isStay ·)) with
  | [] => ['.']
  | t => t

/-! ## Folders of files -/

namespace Folder

/-- Whether some file lies below a place, which is given by the steps to it. -/
def isFolder (files : Table Text) (place : List Text) : Bool :=
  place.isEmpty ||
    files.names.any fun name =>
      place.isPrefixOf (Text.pieces '/' name) && decide (place ≠ Text.pieces '/' name)

/-- The file at a place. -/
def file? (files : Table Text) (place : List Text) : Option Text :=
  files.find? (Text.join ['/'] place)

/-- Follows the steps of a path from a place.  What lies above the folder is not known. -/
def follow (files : Table Text) : List Text → List Text → Except FileFault (List Text)
  | place, [] => .ok place
  | place, step :: steps =>
    if !isFolder files place then .error .notAFolder
    else if isStay step then follow files place steps
    else if step = ['.', '.'] then
      if place.isEmpty then .error .missing else follow files place.dropLast steps
    else
      let next := place ++ [step]
      if isFolder files next || (file? files next).isSome then follow files next steps
      else .error .missing

/-- The folder of the files of a table, under which they are listed by their paths. -/
def ofFiles (files : Table Text) : Folder := fun path =>
  if path.isEmpty then .error .missing
  else if path.head? = some '/' then
    if (Text.pieces '/' path).all isStay then .error .isAFolder else .error .missing
  else
    match follow files [] (Text.pieces '/' path) with
    | .error fault => .error fault
    | .ok place =>
      match file? files place with
      | some content => .ok content
      | none => .error .isAFolder

end Folder

end Stencil
