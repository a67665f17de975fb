import Stencil.Pattern.Reader

/-!
# Matching

A pattern matches by trying its possibilities in order of preference.  `Node.run` takes what is to
be matched afterwards as a continuation: a possibility counts once the continuation accepts the
place it leads to.  A loop goes on only while its body makes progress, so the text that is left
bounds it.
-/

namespace Stencil.Pattern

/-! ## Places -/

/-- A place within the subject: the text before it (last character first), the text after it, and
the texts captured so far. -/
structure Cursor where
  behind : Text
  ahead : Text
  captured : List (Nat × Text) := []

namespace Cursor

/-- The place after the next character, if that is admitted. -/
def step? (p : Char → Bool) (c : Cursor) : Option Cursor :=
  match c.ahead with
  | [] => none
  | d :: rest => if p d then some { c with behind := d :: c.behind, ahead := rest } else none

/-- The place after a text, compared character by character. -/
def skip? (same : Char → Char → Bool) : Text → Cursor → Option Cursor
  | [], c => some c
  | d :: t, c => (c.step? (same d)).bind (skip? same t)

/-- The place some characters earlier. -/
def back? : Nat → Cursor → Option Cursor
  | 0, c => some c
  | n + 1, c =>
    match c.behind with
    | [] => none
    | d :: before => back? n { c with behind := before, ahead := d :: c.ahead }

/-- The text that a group has captured last. -/
def capture? (c : Cursor) (index : Nat) : Option Text := c.captured.lookup index

/-- Whether a place is what an anchor insists on. -/
def atAnchor (c : Cursor) : Anchor → Bool
  | .textStart => c.behind.isEmpty
  | .lineStart => c.behind.isEmpty || c.behind.head? == some '\n'
  | .textEnd => c.ahead.isEmpty
  | .lineEnd eachLine =>
    c.ahead.isEmpty || c.ahead == ['\n'] || (eachLine && c.ahead.head? == some '\n')
  | .boundary ascii negated =>
    let word : Option Char → Bool
      | some d => Category.word.contains ascii d
      | none => false
    if c.behind.isEmpty && c.ahead.isEmpty then false
    else (word c.behind.head? != word c.ahead.head?) != negated

end Cursor

/-! ## Loops -/

/-- What is matched after a place. -/
abbrev Next := Cursor → Option Cursor

/-- Repeats a body a number of times before the continuation. -/
def repeatExactly (body : Next → Next) : Nat → Next → Next
  | 0, next => next
  | n + 1, next => body (repeatExactly body n next)

/-- Repeats a body as often as wanted, at most `most` times.  A repetition without progress is the
last one, so that `fuel`, one more than the text that is left, bounds them. -/
def repeatFreely (greedy : Bool) (body : Next → Next) : Nat → Option Nat → Next → Next
  | 0, _, next => next
  | fuel + 1, most, next => fun c =>
    let more : Option Cursor :=
      if most = some 0 then none
      else body (fun d =>
        if d.ahead.length < c.ahead.length then
          repeatFreely greedy body fuel (most.map (· - 1)) next d
        else next d) c
    if greedy then
      match more with
      | some d => some d
      | none => next c
    else
      match next c with
      | some d => some d
      | none => more

/-- Repeats a body without ever going back on a repetition: exactly `least` times, and then while
it matches and makes progress, at most `most` times more. -/
def repeatForGood (body : Next) : Nat → Nat → Option Nat → Next
  | n + 1, fuel, most => fun c => (body c).bind (repeatForGood body n fuel most)
  | 0, 0, _ => some
  | 0, fuel + 1, most => fun c =>
    if most = some 0 then some c
    else match body c with
      | none => some c
      | some d =>
        if d.ahead.length < c.ahead.length then
          repeatForGood body 0 fuel (most.map (· - 1)) d
        else some d

/-! ## Patterns -/

/-- Matches a pattern and then the continuation. -/
def Node.run : Node → Next → Next
  | .empty, next => next
  | .literal code folding, next => fun c => (c.step? (folding.agrees code)).bind next
  | .any newlines, next => fun c => (c.step? fun d => newlines || d != '\n').bind next
  | .set negated items folding ascii, next => fun c =>
    (c.step? fun d => items.any (SetItem.admits folding ascii d) != negated).bind next
  | .anchor a, next => fun c => if c.atAnchor a then next c else none
  | .seq first second, next => first.run (second.run next)
  | .alt first second, next => fun c =>
    match first.run next c with
    | some d => some d
    | none => second.run next c
  | .group body, next => body.run next
  | .capture index body, next => fun c =>
    body.run (fun d =>
      let text := c.ahead.take (c.ahead.length - d.ahead.length)
      next { d with captured := (index, text) :: d.captured.filter (·.1 != index) }) c
  | .atomic body, next => fun c => (body.run some c).bind next
  | .loop greed least most body, next => fun c =>
    let fuel := c.ahead.length + 1
    let more := most.map (· - least)
    match greed with
    | .possessive => (repeatForGood (body.run some) least fuel more c).bind next
    | .greedy => repeatExactly body.run least (repeatFreely true body.run fuel more next) c
    | .lazy => repeatExactly body.run least (repeatFreely false body.run fuel more next) c
  | .reference index _ folding, next => fun c =>
    match c.capture? index with
    | none => none
    | some t =>
      let same : Char → Char → Bool := fun x y =>
        match folding with
        | .exact => x == y
        | .ascii => x.toLower == y.toLower
        | .full => Text.lowerChar x == Text.lowerChar y
      (c.skip? same t).bind next
  | .look ahead negated body, next => fun c =>
    let start := if ahead then some c else c.back? body.width.1
    match start.bind (body.run some) with
    | some d => if negated then none else next { c with captured := d.captured }
    | none => if negated then next c else none
  | .conditional index yes no, next => fun c =>
    if (c.capture? index).isSome then yes.run next c else no.run next c

/-- Whether a pattern matches the whole of a text. -/
def Node.matchesAll (node : Node) (subject : Text) : Bool :=
  (node.run (fun c => if c.ahead.isEmpty then some c else none)
    { behind := [], ahead := subject }).isSome

/-- Whether the pattern that a text spells matches the whole of a subject. -/
def fullMatch (pattern subject : Text) : Except Fault Bool :=
  (read pattern).map (·.matchesAll subject)

end Stencil.Pattern
