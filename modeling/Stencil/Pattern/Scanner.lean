import Stencil.Pattern.Basic
import Stencil.Pattern.Fault

/-!
# Scanning patterns

A pattern is read lexeme by lexeme with one lexeme of lookahead: a character, or a backslash
together with the character after it.  The scanner also keeps what the reader has to remember of
the groups seen so far and of the settings in force.
-/

namespace Stencil.Pattern

/-! ## State -/

/-- A scanner: the next lexeme (empty at the end), the text after it, the position after it, and
the record of groups and settings. -/
structure Scanner where
  lexeme : Text
  rest : Text
  position : Nat
  settings : Settings := {}
  /-- The width of each group in the order of their opening; an open group has none. -/
  widths : List (Option (Nat × Option Nat)) := []
  names : List (Text × Nat) := []
  /-- The number of the first group that a look-behind under way may not refer to. -/
  behindLimit : Option Nat := none
  /-- Groups that conditionals ask for, with the place where each was first asked for. -/
  awaited : List (Nat × Nat) := []

/-- Reading of patterns. -/
abbrev Scan := EStateM Fault Scanner

namespace Scan

/-! ## Faults -/

/-- The position of the next lexeme. -/
def tell : Scan Nat := do
  let s ← get
  return s.position - s.lexeme.length

/-- Refuses the pattern at a position. -/
def failAt {α : Type} (cause : Cause) (position : Nat) : Scan α :=
  throw (.malformed cause (some position))

/-- Refuses the pattern a number of characters before the next lexeme. -/
def fail {α : Type} (cause : Cause) (back : Nat) : Scan α := do
  failAt cause ((← tell) - back)

/-! ## Lexemes -/

/-- Moves to the next lexeme. -/
def advance : Scan Unit := do
  let s ← get
  match s.rest with
  | [] => set { s with lexeme := [] }
  | '\\' :: [] => failAt .trailingBackslash s.position
  | '\\' :: c :: rest =>
    set { s with lexeme := ['\\', c], rest := rest, position := s.position + 2 }
  | c :: rest => set { s with lexeme := [c], rest := rest, position := s.position + 1 }

/-- The next lexeme. -/
def peek : Scan Text := do
  return (← get).lexeme

/-- Takes the next lexeme. -/
def take : Scan Text := do
  let lexeme ← peek
  advance
  return lexeme

/-- Takes the next lexeme if it is the given character, and tells whether it was. -/
def accept (c : Char) : Scan Bool := do
  if (← peek) = [c] then
    advance
    return true
  else
    return false

/-- Takes at most `n` characters of a class. -/
def takeWhile (p : Char → Bool) : Nat → Scan Text
  | 0 => return []
  | n + 1 => do
    match ← peek with
    | [c] =>
      if p c then
        advance
        return c :: (← takeWhile p n)
      else return []
    | _ => return []

/-- Takes a name up to a closing character, which is taken too.  `fuel` bounds the lexemes. -/
def takeName (closing : Char) (what : String) (fuel : Nat) : Scan Text :=
  go fuel []
where
  /-- The name so far is `taken`. -/
  go : Nat → Text → Scan Text
    | 0, taken => return taken
    | fuel + 1, taken => do
      let lexeme ← take
      if lexeme.isEmpty then
        if taken.isEmpty then fail (.missingName what) 0
        else fail (.unterminatedName closing) taken.length
      else if lexeme = [closing] then
        if taken.isEmpty then fail (.missingName what) 1 else return taken
      else go fuel (taken ++ lexeme)

/-! ## Groups -/

/-- One more than the number of groups opened so far. -/
def groupCount : Scan Nat := do
  return (← get).widths.length + 1

/-- Opens a group, which may have a name, and gives its number. -/
def openGroup (name : Option Text) : Scan Nat := do
  let index ← groupCount
  modify fun s => { s with widths := s.widths ++ [none] }
  match name with
  | none => return index
  | some name =>
    match (← get).names.lookup name with
    | some earlier => fail (.redefinedGroup name index earlier) (name.length + 1)
    | none =>
      modify fun s => { s with names := s.names ++ [(name, index)] }
      return index

/-- Closes a group of a known width. -/
def closeGroup (index : Nat) (width : Nat × Option Nat) : Scan Unit :=
  modify fun s => { s with widths := s.widths.set (index - 1) (some width) }

/-- The width of a group that has been closed. -/
def closedWidth? (index : Nat) : Scan (Option (Nat × Option Nat)) := do
  let s ← get
  return if index = 0 then none else (s.widths[index - 1]?).join

/-- Within a look-behind only groups closed before it can be referred to. -/
def checkBehind (index : Nat) : Scan Unit := do
  match (← get).behindLimit with
  | none => return
  | some limit =>
    if (← closedWidth? index).isNone then fail .openReference 0
    else if limit ≤ index then fail .behindReference 0
    else return

end Scan

end Stencil.Pattern
