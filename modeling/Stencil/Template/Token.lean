import Stencil.Script
import Stencil.Text.Basic

/-!
# Substitution tokens

A token is a start mark, a type keyword, an opening mark, a key, and the closing mark that matches
the opening one.  The marks are any texts, `$`, `{` and `}` unless a host says otherwise.

A start mark after a backslash begins no token.  While a template is under resolution such a
backslash is replaced by `escapeMark`, a private-use character, so that it stays effective however
often the text around it is resolved again; `restore` takes the marks out of the final result.
-/

namespace Stencil.Template

/-! ## Marks -/

/-- The character that takes the place of an effective backslash. -/
def escapeMark : Char := '\ue000'

/-- Whether a character makes the start mark after it ordinary text. -/
def isEscape (c : Char) : Bool := c == '\\' || c == escapeMark

/-- A text without escape marks. -/
def restoreText (t : Text) : Text := t.filter (· != escapeMark)

mutual

/-- A value whose texts, rows and lists are without escape marks. -/
def restore : Value → Value
  | .str t => .str (restoreText t)
  | .list items => .list (restoreAll items)
  | .tuple items => .tuple (restoreAll items)
  | v => v

/-- The values of a list without escape marks. -/
def restoreAll : List Value → List Value
  | [] => []
  | v :: vs => restore v :: restoreAll vs

end

/-! ## Matching marks -/

/-- The text before and after the closing mark that matches, where `depth` opening marks are
waiting for theirs besides.  Opening marks are looked for first. -/
def matchingEnd (opening closing : Text) (depth : Nat) : Text → Option (Text × Text)
  | [] => none
  | c :: t =>
    let skip (n depth : Nat) : Option (Text × Text) :=
      (matchingEnd opening closing depth (t.drop n)).map fun (before, after) =>
        (c :: t.take n ++ before, after)
    if opening.isPrefixOf (c :: t) then skip (opening.length - 1) (depth + 1)
    else if closing.isPrefixOf (c :: t) then
      if depth = 0 ∨ closing = [] then some ([], (c :: t).drop closing.length)
      else skip (closing.length - 1) (depth - 1)
    else skip 0 depth
termination_by t => t.length
decreasing_by
  simp only [List.length_drop, List.length_cons]
  omega

/-- A type keyword, a key and the text after them. -/
structure Token where
  keyword : Text
  key : Text
  after : Text
  deriving DecidableEq, Repr

/-- The token that a text starts with. -/
def token? (d : Delimiters) (t : Text) : Option Token :=
  if d.start.isPrefixOf t then
    match Text.cut? d.opening (t.drop d.start.length) with
    | none => none
    | some (keyword, inner) =>
      (matchingEnd d.opening d.closing 0 inner).map fun (key, after) => { keyword, key, after }
  else none

/-- The characters that no type keyword holds; a text with one of them is markup of some other
language. -/
def foreignMarks : Text := ['<', '&', '[', '#', '$', '%', '(', ')']

/-- Whether what looks like a type keyword is foreign markup. -/
def isForeign (keyword : Text) : Bool := keyword.any foreignMarks.contains

end Stencil.Template
