import Stencil.Yaml.Scalar

/-!
# Documents

A document is one node: a scalar, a collection in flow style between brackets, or a mapping or a
sequence in block style, whose members stand in one column.  Anchors, tags, block scalars,
complex keys, directives and document markers are not part of the language that is read here.

## Contents

* Flow collections.
* Block collections.
* `read`, the value of a document.

The functions that read nodes call each other with one step less of fuel.  Of three steps in a row
at least one takes a character, so that `read` gives enough of it.
-/

namespace Stencil.Yaml

/-! ## Keys -/

/-- The most characters that may stand before the colon of a key. -/
def keyLimit : Nat := 1024

/-- Takes the colon after a key, if there is one on the line on which the key starts. -/
def colonTaken (flow : Bool) (start : Cursor) : Scan Bool := do
  let c ← get
  let d := c.advance (c.rest.takeWhile (· == ' ')).length
  let e := d.advance 1
  if d.line = start.line ∧ d.index ≤ start.index + keyLimit ∧ d.rest.head? = some ':' ∧
      (flow || isEnd e.rest.head?) then
    set e
    return true
  else return false

/-- Whether a flow collection starts here. -/
def startsFlow (t : Text) : Bool := t.head? == some '[' || t.head? == some '\x7b'

/-! ## Flow collections -/

mutual

/-- Takes a node in flow style. -/
def flowNode : Nat → Scan Value
  | 0 => throw .malformed
  | fuel + 1 => do
    if ← taken '[' then Value.list <$> flowItems fuel
    else if ← taken '\x7b' then (Value.dict ∘ Entries.ofPairs) <$> flowEntries fuel
    else (← readScalar true 0).value

/-- Takes the value after a colon, which may be missing. -/
def flowValue : Nat → Scan Value
  | 0 => throw .malformed
  | fuel + 1 => do
    skip true
    if (← get).rest.head?.any [',', ']', '\x7d'].contains then return .none
    else flowNode fuel

/-- Takes the items of a sequence up to its bracket.  An item may be a single pair. -/
def flowItems : Nat → Scan (List Value)
  | 0 => throw .malformed
  | fuel + 1 => do
    skip true
    if ← taken ']' then return []
    let start ← get
    let item ←
      if startsFlow start.rest then flowNode fuel
      else do
        let scalar ← readScalar true 0
        if ← colonTaken true start then do
          let key ← scalar.key
          let value ← flowValue fuel
          pure (Value.dict [(key, value)])
        else scalar.value
    skip true
    if ← taken ',' then return item :: (← flowItems fuel)
    else if ← taken ']' then return [item]
    else throw .malformed

/-- Takes the entries of a mapping up to its brace.  Keys are scalars. -/
def flowEntries : Nat → Scan (List (Value × Value))
  | 0 => throw .malformed
  | fuel + 1 => do
    skip true
    if ← taken '\x7d' then return []
    let start ← get
    let scalar ← readScalar true 0
    let key ← scalar.key
    let value ← if ← colonTaken true start then flowValue fuel else pure Value.none
    skip true
    if ← taken ',' then return (key, value) :: (← flowEntries fuel)
    else if ← taken '\x7d' then return [(key, value)]
    else throw .malformed

end

/-! ## Block collections -/

/-- Whether an item of a block sequence starts here. -/
def startsItem : Text → Bool
  | '-' :: t => isEnd t.head?
  | _ => false

mutual

/-- Takes a node in a block.  A collection in block style can start here only if `fresh`: on a line
of its own, or after the dash of an item.  A scalar goes on at the column `least`. -/
def blockNode : Nat → Nat → Bool → Scan Value
  | 0, _, _ => throw .malformed
  | fuel + 1, least, fresh => do
    let start ← get
    if startsItem start.rest then
      if fresh then Value.list <$> blockItems fuel start.column false else throw .malformed
    else if startsFlow start.rest then
      let value ← flowNode fuel
      endLine
      return value
    else
      let scalar ← readScalar false least
      if ← colonTaken false start then
        if !fresh then throw .malformed
        let key ← scalar.key
        let value ← blockValue fuel start.column
        let more ← blockEntries fuel start.column
        return .dict (Entries.ofPairs ((key, value) :: more))
      else
        endLine
        scalar.value

/-- Takes the value after the colon of a key in a column: on the same line, or on further lines to
the right of the key.  A sequence may also stand in the column of the key. -/
def blockValue : Nat → Nat → Scan Value
  | 0, _ => throw .malformed
  | fuel + 1, column => do
    skip false
    if !atBreak (← get).rest then blockNode fuel (column + 1) false
    else
      skip true
      let c ← get
      if c.rest.isEmpty || decide (c.column < column) then return .none
      else if c.column = column then
        if startsItem c.rest then Value.list <$> blockItems fuel column true else return .none
      else blockNode fuel (column + 1) true

/-- Takes the further entries of a mapping in a column. -/
def blockEntries : Nat → Nat → Scan (List (Value × Value))
  | 0, _ => throw .malformed
  | fuel + 1, column => do
    skip true
    let start ← get
    if start.rest.isEmpty || decide (start.column < column) then return []
    else if start.column ≠ column then throw .malformed
    else
      let scalar ← readScalar false (column + 1)
      if !(← colonTaken false start) then throw .malformed
      let key ← scalar.key
      let value ← blockValue fuel column
      return (key, value) :: (← blockEntries fuel column)

/-- Takes the items of a sequence in a column.  One in the column of a key ends where no item
follows. -/
def blockItems : Nat → Nat → Bool → Scan (List Value)
  | 0, _, _ => throw .malformed
  | fuel + 1, column, underKey => do
    skip true
    let c ← get
    if c.rest.isEmpty || decide (c.column < column) then return []
    else if c.column ≠ column then throw .malformed
    else if startsItem c.rest then
      take 1
      let item ← blockItem fuel column
      return item :: (← blockItems fuel column underKey)
    else if underKey then return []
    else throw .malformed

/-- Takes the node after the dash of an item in a column. -/
def blockItem : Nat → Nat → Scan Value
  | 0, _ => throw .malformed
  | fuel + 1, column => do
    skip false
    if !atBreak (← get).rest then blockNode fuel (column + 1) true
    else
      skip true
      let c ← get
      if c.rest.isEmpty || decide (c.column ≤ column) then return .none
      else blockNode fuel (column + 1) true

end

/-! ## Documents -/

/-- Every end of line of a file as one character. -/
def lineEnds : Text → Text
  | [] => []
  | '\r' :: '\n' :: t => '\n' :: lineEnds t
  | '\r' :: t => '\n' :: lineEnds t
  | c :: t => c :: lineEnds t

/-- A character that may stand in a document. -/
def isAllowed (c : Char) : Bool :=
  let n := c.toNat
  n == 9 || n == 10 || decide (0x20 ≤ n ∧ n ≤ 0x7E) || n == 0x85 ||
    decide (0xA0 ≤ n ∧ n ≤ 0xFFFD) || decide (0x10000 ≤ n)

/-- Whether a line is a marker of the start or the end of a document; `fresh` tells whether the text
is at the start of a line. -/
def hasMarker : Bool → Text → Bool
  | _, [] => false
  | fresh, c :: t =>
    (fresh && [['-', '-', '-'], ['.', '.', '.']].contains ((c :: t).take 3) &&
      isEnd ((c :: t).drop 3).head?) ||
    hasMarker (isBreak c) t

/-- Takes a whole document; an empty one is nothing. -/
def document (fuel : Nat) : Scan Value := do
  discard <| taken '\uFEFF'
  skip true
  if (← get).rest.isEmpty then return .none
  let value ← blockNode fuel 0 true
  skip true
  if !(← get).rest.isEmpty then throw .malformed
  return value

/-- The value of a document. -/
def read (t : Text) : Except Fault Value :=
  let t := lineEnds t
  if !t.all isAllowed || hasMarker true t then .error .malformed
  else
    match (document (3 * t.length + 8)).run { rest := t } with
    | .ok value _ => .ok value
    | .error fault _ => .error fault

end Stencil.Yaml
