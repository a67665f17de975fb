import Stencil.Input.Comment
import Stencil.Pair.Basic

/-!
# Reading name/value pairs

The forms of a pair, between whose parts whitespace and comments may stand:

* `name="value"`, `name='value'`, `name:"value"`, and `"value"` alone for a default name;
* `name={"a", "b"}` for a list and `name=["a", "b"]` for an array;
* `name => $target{key}` for an output mapping;
* `name=value>` without quotes, where those are not required, up to the `>` that is left.
-/

namespace Stencil.Input

/-! ## Lists -/

/-- What may stand between the items of a list. -/
def itemMargins : Text := margins ++ [',', ':', ';']

/-- The quoted items of a list from its next character on, which is `c`, up to the character that
ends the list. -/
def readItems (closing : Text) (c : Option Char) (i : Input) :
    EStateM.Result InputFault Input (List Text) :=
  match c with
  | none => .error (.unquotedItem none) i
  | some c =>
    if closing = [c] then .ok [] i
    else if Text.isQuote c then
      match _h : i.readClosed [] c with
      | .error e j => .error e j
      | .ok item j =>
        match _hj : j.skipTrivia itemMargins with
        | .error e k => .error e k
        | .ok () k =>
          match _hk : k.next with
          | .error e l => .error e l
          | .ok d l =>
            match readItems closing d l with
            | .ok items m => .ok (item :: items) m
            | .error e m => .error e m
    else .error (.unquotedItem (some c)) i
termination_by i.size
decreasing_by
  have := size_of_readClosed _h
  have := size_of_skipTrivia _hj
  have := size_of_next _hk
  omega

/-- Skips whitespace and comments and reads the next character. -/
def nextPart : Reading (Option Char) := do
  let _ ← (skipTrivia margins : Reading Unit)
  (next : Reading (Option Char))

/-- The items of a list whose opening has been read. -/
def readList (closing : Text) : Reading (List Text) := do
  let c ← nextPart
  (readItems closing c : Reading (List Text))

/-! ## Values -/

/-- Pushes back what `next` gave. -/
def giveBack (c : Option Char) : Reading Unit := modify (unreadOption c)

/-- An unquoted value, up to the `>` that is left.  A slash before the `>` belongs to the tag and is
left with it; whitespace before the slash is dropped. -/
def readUnquoted (start : Text) : Reading Text := do
  let (t, found) ← (readToOutside '>' : Reading (Text × Bool))
  if found then giveBack (some '>')
  if t.getLast? = some '/' then
    giveBack (some '/')
    return start ++ Text.trim t.dropLast
  else return start ++ t

/-- The part of an output mapping after `name =>`. -/
def readMapping (name : Text) : Reading Pair := do
  let dollar ← nextPart
  if dollar ≠ some '$' then throw (.missingDollar name)
  let target ← (readToken ['_', ':', '.'] : Reading Text)
  if !(← get).targets.contains target then throw (.badTarget name target)
  let brace ← nextPart
  if brace ≠ some '{' then throw (.missingBrace name target)
  let key ← (readClosed name '}' : Reading Text)
  return { name, value := .str key, target := some target }

/-- The value of a pair from its first character on, which is `c`. -/
def readPairValue (name : Text) (requireQuotes : Bool) (c : Option Char) : Reading Pair := do
  match c with
  | some '>' =>
    if requireQuotes then readMapping name
    else
      giveBack c
      return { name, value := .str [] }
  | some '{' =>
    let items ← readList ['}']
    return { name, value := .list (items.map Value.str) }
  | some '[' =>
    let items ← readList [']']
    return { name, value := .tuple (items.map Value.str) }
  | c =>
    match c with
    | some quote =>
      if Text.isQuote quote then
        let t ← (readClosed name quote : Reading Text)
        return { name, value := .str t }
      else if requireQuotes then throw (.missingQuotes name)
      else
        giveBack c
        return { name, value := .str (← readUnquoted []) }
    | none =>
      if requireQuotes then throw (.missingQuotes name)
      else return { name, value := .str (← readUnquoted []) }

/-! ## Pairs -/

/-- Reads a pair.  A value without a name goes to the default name, if there is one; where quotes
are not required, so does a lone word that turns out to be a value. -/
def readPair (default? : Option Text) (requireQuotes : Bool) (extra : Text) : Reading Pair := do
  let word ← (readToken extra : Reading Text)
  let name ← match default? with
    | some name =>
      if word.isEmpty then
        giveBack (some '=')
        pure name
      else pure word
    | none => pure word
  let sign ← nextPart
  if sign = some '=' ∨ sign = some ':' then
    let c ← nextPart
    readPairValue name requireQuotes c
  else if !requireQuotes ∧ default? ≠ some name then
    giveBack sign
    return { name := default?.getD [], value := .str (← readUnquoted name) }
  else throw (.missingEquals name)

/-- Reads a pair that has a name and quotes. -/
def readQuotedPair : Reading Pair := readPair none true ['_', '.']

end Stencil.Input
