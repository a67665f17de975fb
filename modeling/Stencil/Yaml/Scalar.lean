import Stencil.Yaml.Cursor

/-!
# Scalars

Reading of plain, single-quoted and double-quoted scalars.  All three can go on over several lines:
a single end of line is then a space, and of several the first is dropped.

## Contents

* `folded`, the rule for ends of lines.
* `quotedBody`, with the escapes of double quotes.
* `Scalar`, and `readScalar`, which takes a scalar of any kind.
-/

namespace Stencil.Yaml

/-! ## Folding -/

/-- An end of line as it is kept. -/
def keptBreak (c : Char) : Char := if c = '\u0085' then '\n' else c

/-- What a run of spaces and ends of lines within a scalar stands for. -/
def folded (run : Text) : Text :=
  match (run.filter isBreak).map keptBreak with
  | [] => run
  | ['\n'] => [' ']
  | '\n' :: more => more
  | kept => kept

/-! ## Quoted scalars -/

/-- The characters that escapes of one character stand for. -/
def simpleEscapes : List (Char × Char) :=
  [('0', '\x00'), ('a', '\x07'), ('b', '\x08'), ('t', '\t'), ('\t', '\t'), ('n', '\n'),
   ('v', '\x0b'), ('f', '\x0c'), ('r', '\r'), ('e', '\x1b'), (' ', ' '), ('"', '"'),
   ('\\', '\\'), ('/', '/'), ('N', '\u0085'), ('_', '\u00a0'), ('L', '\u2028'), ('P', '\u2029')]

/-- The number of digits after the letter of an escape that gives a code. -/
def codeLengths : List (Char × Nat) := [('x', 2), ('u', 4), ('U', 8)]

/-- The character of a code of exactly so many digits. -/
def coded? (length : Nat) (digits : Text) : Option Char := do
  if digits.length ≠ length then none
  let code ← digits.foldlM (fun n c => (digitIn? 16 c).map (16 * n + ·)) 0
  if code.isValidChar then some (Char.ofNat code) else none

/-- Puts what has been found in front of what follows. -/
def prepended (found : Text) (following : Option (Text × Text)) : Option (Text × Text) :=
  following.map fun (body, after) => (found ++ body, after)

/-- What a scalar between quotes holds, and the text after the closing quote. -/
def quotedBody (quote : Char) : Text → Option (Text × Text)
  | [] => none
  | c :: t =>
    if c = quote then
      if quote = '\'' ∧ t.head? = some quote then prepended [quote] (quotedBody quote t.tail)
      else some ([], t)
    else if isSpacing c then
      prepended (folded (c :: t.takeWhile isSpacing)) (quotedBody quote (t.dropWhile isSpacing))
    else if quote = '"' ∧ c = '\\' then
      match t with
      | [] => none
      | e :: rest =>
        if isBreak e then
          prepended (((rest.takeWhile isSpacing).filter isBreak).map keptBreak)
            (quotedBody quote (rest.dropWhile isSpacing))
        else
          match simpleEscapes.lookup e, codeLengths.lookup e with
          | some found, _ => prepended [found] (quotedBody quote rest)
          | none, some length =>
            match coded? length (rest.take length) with
            | some found => prepended [found] (quotedBody quote (rest.drop length))
            | none => none
          | none, none => none
    else prepended [c] (quotedBody quote t)
termination_by t => t.length
decreasing_by
  all_goals
    try have := (List.dropWhile_sublist (l := rest) isSpacing).length_le
    try have := (List.dropWhile_sublist (l := t) isSpacing).length_le
    simp
    try omega

/-! ## Plain scalars -/

/-- The characters with a meaning of their own at the start of a node. -/
def indicators : Text := "-?:,[]\x7b\x7d#&*!|>'\"%@`".toList

/-- The characters that end a word within a flow collection. -/
def flowIndicators : Text := ",?[]\x7b\x7d".toList

/-- Whether a plain scalar starts here. -/
def startsPlain (flow : Bool) : Text → Bool
  | [] => false
  | c :: t =>
    if isSpacing c then false
    else if indicators.contains c then
      !isEnd t.head? && (c == '-' || (!flow && (c == '?' || c == ':')))
    else true

/-- Whether a colon is an indicator, given what follows it. -/
def endsKey (flow : Bool) (next : Option Char) : Bool :=
  isEnd next || (flow && next.any [',', '[', ']', '\x7b', '\x7d'].contains)

/-- The longest word of a plain scalar that a text starts with. -/
def plainWord (flow : Bool) : Text → Text
  | [] => []
  | c :: t =>
    if isSpacing c || (c == ':' && endsKey flow t.head?) || (flow && flowIndicators.contains c)
    then []
    else c :: plainWord flow t

/-- A space or an end of line. -/
def isGap (c : Char) : Bool := c == ' ' || isBreak c

/-- The further words of a plain scalar, with what separates them, and the place after them.  Those
on further lines must stand at the column `least` or to the right of it, unless in a flow
collection. -/
def plainWords (flow : Bool) (least : Nat) : Nat → Cursor → Text × Cursor
  | 0, c => ([], c)
  | fuel + 1, c =>
    let run := c.rest.takeWhile isGap
    let d := c.advance run.length
    let word := plainWord flow d.rest
    if run.isEmpty || word.isEmpty || word.head? == some '#' || (!flow && decide (d.column < least))
    then ([], c)
    else
      let (more, e) := plainWords flow least fuel (d.advance word.length)
      (folded run ++ word ++ more, e)

/-! ## Scalars -/

/-- A scalar as it is written. -/
inductive Scalar where
  | plain (t : Text)
  | quoted (t : Text)
  deriving DecidableEq, Repr

/-- The value of a scalar. -/
def Scalar.value : Scalar → Scan Value
  | .plain t =>
    match plainValue t with
    | .ok v => return v
    | .error fault => throw fault
  | .quoted t => return .str t

/-- The value of a scalar as the key of a mapping. -/
def Scalar.key : Scalar → Scan Value
  | .plain ['='] => return .str ['=']
  | s => s.value

/-- Takes a scalar; `least` is as for `plainWords`. -/
def readScalar (flow : Bool) (least : Nat) : Scan Scalar := do
  let c ← get
  match c.rest with
  | [] => throw .malformed
  | q :: t =>
    if q = '\'' ∨ q = '"' then
      match quotedBody q t with
      | none => throw .malformed
      | some (body, after) =>
        take (c.rest.length - after.length)
        return .quoted body
    else if startsPlain flow c.rest then
      let word := plainWord flow c.rest
      let (more, d) := plainWords flow least c.rest.length (c.advance word.length)
      set d
      return .plain (word ++ more)
    else throw .malformed

end Stencil.Yaml
