import Stencil.Text.Alphanumeric
import Stencil.Text.Digit
import Stencil.Text.LetterCase

/-!
# Patterns

The patterns that the operator `=` of conditions matches texts against: regular expressions with
captures, back references, look-around and atomic groups.  A pattern is a tree whose leaves carry
the settings in force where they stand, so that matching needs no settings of its own.

Characters of a pattern are code points, since an escape may name a surrogate, which no text holds.
-/

namespace Stencil.Pattern

/-! ## Settings -/

/-- The settings that a pattern can switch for itself or for a group. -/
structure Settings where
  ignoreCase : Bool := false
  multiline : Bool := false
  dotAll : Bool := false
  verbose : Bool := false
  ascii : Bool := false
  unicode : Bool := false
  deriving DecidableEq, Repr

/-- How a literal compares characters. -/
inductive Folding where
  | exact
  | ascii
  | full
  deriving DecidableEq, Repr

/-- The comparison of literals under some settings. -/
def Settings.folding (s : Settings) : Folding :=
  if s.ignoreCase then (if s.ascii then .ascii else .full) else .exact

/-! ## Character classes -/

/-- The named character classes. -/
inductive Category where
  | digit
  | space
  | word
  deriving DecidableEq, Repr

/-- A member of a bracketed set. -/
inductive SetItem where
  | range (first last : Nat)
  | category (kind : Category) (negated : Bool)
  deriving DecidableEq, Repr

/-- Whether a character belongs to a named class. -/
def Category.contains (ascii : Bool) (kind : Category) (c : Char) : Bool :=
  match kind with
  | .digit => if ascii then c.isDigit else Text.isDigit c
  | .space =>
    if ascii then decide (9 ≤ c.toNat ∧ c.toNat ≤ 13) || c == ' ' else Text.isBlank c
  | .word => (if ascii then c.isAlphanum else Text.isAlphanumeric c) || c == '_'

/-- Whether a code point differs from a character at most in what the folding ignores. -/
def Folding.agrees (folding : Folding) (code : Nat) (c : Char) : Bool :=
  match folding with
  | .exact => code == c.toNat
  | .ascii =>
    if code < 128 ∧ c.toNat < 128 then (Char.ofNat code).toLower == c.toLower else code == c.toNat
  | .full => code == c.toNat || (code.isValidChar && Text.sameIgnoringCase (Char.ofNat code) c)

/-- The code points that agree with a character. -/
def Folding.variants (folding : Folding) (c : Char) : List Nat :=
  match folding with
  | .exact => [c.toNat]
  | .ascii => [c.toNat, c.toLower.toNat, c.toUpper.toNat]
  | .full => c.toNat :: Text.caseVariants c

/-- Whether a member of a set admits a character. -/
def SetItem.admits (folding : Folding) (ascii : Bool) (c : Char) : SetItem → Bool
  | .range first last => (folding.variants c).any fun code => decide (first ≤ code ∧ code ≤ last)
  | .category kind negated => kind.contains ascii c != negated

/-! ## Trees -/

/-- A place that a pattern can insist on. -/
inductive Anchor where
  | textStart
  | lineStart
  | textEnd
  | lineEnd (eachLine : Bool)
  | boundary (ascii : Bool) (negated : Bool)
  deriving DecidableEq, Repr

/-- How eagerly a loop repeats its body; a possessive loop gives nothing back. -/
inductive Greed where
  | greedy
  | lazy
  | possessive
  deriving DecidableEq, Repr

/-- A pattern. -/
inductive Node where
  | empty
  | literal (code : Nat) (folding : Folding)
  | any (newlines : Bool)
  | set (negated : Bool) (items : List SetItem) (folding : Folding) (ascii : Bool)
  | anchor (a : Anchor)
  | seq (first second : Node)
  | alt (first second : Node)
  | group (body : Node)
  | capture (index : Nat) (body : Node)
  | atomic (body : Node)
  | loop (greed : Greed) (least : Nat) (most : Option Nat) (body : Node)
  | reference (index : Nat) (width : Nat × Option Nat) (folding : Folding)
  | look (ahead : Bool) (negated : Bool) (body : Node)
  | conditional (index : Nat) (yes no : Node)
  deriving Repr, Inhabited

/-! ## Widths -/

/-- The larger of two upper bounds, of which nothing is the greatest. -/
def maxBound : Option Nat → Option Nat → Option Nat
  | some a, some b => some (max a b)
  | _, _ => none

/-- The sum of two upper bounds. -/
def addBound : Option Nat → Option Nat → Option Nat
  | some a, some b => some (a + b)
  | _, _ => none

/-- An upper bound repeated. -/
def mulBound : Option Nat → Option Nat → Option Nat
  | some 0, _ => some 0
  | some a, some b => some (a * b)
  | none, some 0 => some 0
  | _, _ => none

/-- The least and the greatest number of characters that a pattern can match. -/
def Node.width : Node → Nat × Option Nat
  | .empty => (0, some 0)
  | .literal _ _ => (1, some 1)
  | .any _ => (1, some 1)
  | .set _ _ _ _ => (1, some 1)
  | .anchor _ => (0, some 0)
  | .seq a b => (a.width.1 + b.width.1, addBound a.width.2 b.width.2)
  | .alt a b => (min a.width.1 b.width.1, maxBound a.width.2 b.width.2)
  | .group body => body.width
  | .capture _ body => body.width
  | .atomic body => body.width
  | .loop _ least most body => (least * body.width.1, mulBound body.width.2 most)
  | .reference _ width _ => width
  | .look _ _ _ => (0, some 0)
  | .conditional _ yes no => (min yes.width.1 no.width.1, maxBound yes.width.2 no.width.2)

/-- Whether every look-behind within a pattern has a fixed width. -/
def Node.behindsFixed : Node → Bool
  | .seq a b => a.behindsFixed && b.behindsFixed
  | .alt a b => a.behindsFixed && b.behindsFixed
  | .group body => body.behindsFixed
  | .capture _ body => body.behindsFixed
  | .atomic body => body.behindsFixed
  | .loop _ _ _ body => body.behindsFixed
  | .look ahead _ body => (ahead || some body.width.1 == body.width.2) && body.behindsFixed
  | .conditional _ yes no => yes.behindsFixed && no.behindsFixed
  | _ => true

end Stencil.Pattern
