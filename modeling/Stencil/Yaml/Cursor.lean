import Stencil.Yaml.Schema

/-!
# Places in a document

A cursor is what is left of a document together with the line and the column that have been
reached; the structure of a document is in its columns.

## Contents

* `Cursor` and `Cursor.advance`.
* `Scan`, the monad of reading a document.
* Skipping spaces and comments, on a line or across lines.
-/

namespace Stencil.Yaml

/-! ## Characters -/

/-- The end of a line. -/
def isBreak (c : Char) : Bool := c == '\n' || c == '\u0085' || c == '\u2028' || c == '\u2029'

/-- What words are separated by: spaces, tabs and ends of lines. -/
def isSpacing (c : Char) : Bool := c == ' ' || c == '\t' || isBreak c

/-- Whether no word goes on: the document is at its end, or spacing follows. -/
def isEnd (next : Option Char) : Bool := next.all isSpacing

/-! ## Cursors -/

/-- A place in a document. -/
structure Cursor where
  rest : Text
  /-- The number of characters before the place. -/
  index : Nat := 0
  line : Nat := 0
  column : Nat := 0
  deriving DecidableEq, Repr

namespace Cursor

/-- The place after one more character.  A byte order mark has no width. -/
def next (c : Cursor) : Cursor :=
  match c.rest with
  | [] => c
  | x :: rest =>
    if isBreak x then { rest, index := c.index + 1, line := c.line + 1, column := 0 }
    else if x = '\uFEFF' then { c with rest, index := c.index + 1 }
    else { c with rest, index := c.index + 1, column := c.column + 1 }

/-- The place after a number of characters. -/
def advance : Nat → Cursor → Cursor
  | 0, c => c
  | n + 1, c => advance n c.next

/-- Advancing takes characters from what is left. -/
theorem rest_advance (n : Nat) (c : Cursor) : (c.advance n).rest = c.rest.drop n := by
  induction n generalizing c with
  | zero => rfl
  | succ n ih =>
    rw [advance, ih, next]
    split
    · rename_i h
      simp [h]
    · rename_i h
      split
      · simp [h]
      · split <;> simp [h]

end Cursor

/-! ## Reading -/

/-- Reading on in a document. -/
abbrev Scan := EStateM Fault Cursor

/-- Takes a number of characters. -/
def take (n : Nat) : Scan Unit := modify (Cursor.advance n)

/-- Takes a character if it is next. -/
def taken (c : Char) : Scan Bool := do
  if (← get).rest.head? = some c then
    take 1
    return true
  else return false

/-- The number of characters of spaces and comments that a text starts with, across lines or up to
the end of the line; `comment` tells whether the text starts within a comment. -/
def triviaLength (across : Bool) : Bool → Text → Nat
  | _, [] => 0
  | comment, c :: t =>
    if isBreak c then if across then triviaLength across false t + 1 else 0
    else if comment || c == ' ' then triviaLength across comment t + 1
    else if c == '#' then triviaLength across true t + 1
    else 0

/-- Skips spaces and comments, across lines or up to the end of the line. -/
def skip (across : Bool) : Scan Unit := do
  take (triviaLength across false (← get).rest)

/-- Whether the line is at its end. -/
def atBreak (t : Text) : Bool := t.head?.all isBreak

/-- Takes what may follow a node on its line. -/
def endLine : Scan Unit := do
  skip false
  if !atBreak (← get).rest then throw .malformed

end Stencil.Yaml
