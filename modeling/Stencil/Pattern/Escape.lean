import Stencil.Pattern.Scanner
import Stencil.Text.CharacterName

/-!
# Escapes of patterns

What a backslash and the characters after it mean, outside and inside a bracketed set.
-/

namespace Stencil.Pattern

/-! ## Meanings -/

/-- What an escape stands for. -/
inductive Escape where
  | code (code : Nat)
  | category (kind : Category) (negated : Bool)
  | anchor (a : Anchor)
  | reference (index : Nat) (width : Nat × Option Nat)

/-- The control characters that have a letter. -/
def controlEscape? : Char → Option Nat
  | 'a' => some 7
  | 'b' => some 8
  | 'f' => some 12
  | 'n' => some 10
  | 'r' => some 13
  | 't' => some 9
  | 'v' => some 11
  | '\\' => some 92
  | _ => none

/-- The named character classes. -/
def categoryEscape? : Char → Option (Category × Bool)
  | 'd' => some (.digit, false)
  | 'D' => some (.digit, true)
  | 's' => some (.space, false)
  | 'S' => some (.space, true)
  | 'w' => some (.word, false)
  | 'W' => some (.word, true)
  | _ => none

/-- The places that an escape can name. -/
def anchorEscape? (ascii : Bool) : Char → Option Anchor
  | 'A' => some .textStart
  | 'Z' => some .textEnd
  | 'b' => some (.boundary ascii false)
  | 'B' => some (.boundary ascii true)
  | _ => none

/-! ## Numbers -/

/-- A hexadecimal digit. -/
def isHexDigit (c : Char) : Bool :=
  c.isDigit || decide ('a' ≤ c ∧ c ≤ 'f') || decide ('A' ≤ c ∧ c ≤ 'F')

/-- An octal digit. -/
def isOctalDigit (c : Char) : Bool := decide ('0' ≤ c ∧ c ≤ '7')

/-- What an ASCII digit of a base up to sixteen is worth. -/
def hexValue (c : Char) : Nat :=
  if c.isDigit then c.toNat - 48 else c.toLower.toNat - 87

/-- The number that digits of a base stand for. -/
def numberIn (base : Nat) (digits : Text) : Nat :=
  digits.foldl (fun n c => base * n + hexValue c) 0

namespace Scan

/-- A code of exactly `width` hexadecimal digits; the lexeme `\x`, `\u` or `\U` has been taken. -/
def hexEscape (lexeme : Text) (width : Nat) : Scan Escape := do
  let digits ← takeWhile isHexDigit width
  let spelled := lexeme ++ digits
  if digits.length ≠ width then fail (.incompleteEscape spelled) spelled.length
  else
    let code := numberIn 16 digits
    if 0x10FFFF < code then fail (.badEscape spelled) spelled.length else return .code code

/-- A character by its name. -/
def namedEscape (fuel : Nat) : Scan Escape := do
  if ← accept '{' then
    let name ← takeName '}' "character name" fuel
    match Text.codeOfName? name with
    | some code => return .code code
    | none => fail (.undefinedCharacter name) (name.length + 4)
  else fail .missingBrace 0

/-- An octal code of up to three digits, the first of which is in the lexeme. -/
def octalEscape (spelled : Text) : Scan Escape := do
  let code := numberIn 8 (spelled.drop 1)
  if 0o377 < code then fail (.octalTooLarge spelled) spelled.length else return .code code

/-- An escape that is a character standing for itself, unless it is a letter. -/
def selfEscape (lexeme : Text) (c : Char) : Scan Escape :=
  if c.isAlpha then fail (.badEscape lexeme) lexeme.length else return .code c.toNat

/-- An escape inside a bracketed set. -/
def setEscape (lexeme : Text) (c : Char) (fuel : Nat) : Scan Escape := do
  match controlEscape? c, categoryEscape? c with
  | some code, _ => return .code code
  | none, some (kind, negated) => return .category kind negated
  | none, none =>
    if c = 'x' then hexEscape lexeme 2
    else if c = 'u' then hexEscape lexeme 4
    else if c = 'U' then hexEscape lexeme 8
    else if c = 'N' then namedEscape fuel
    else if isOctalDigit c then
      let digits ← takeWhile isOctalDigit 2
      octalEscape (lexeme ++ digits)
    else if c.isDigit then fail (.badEscape lexeme) lexeme.length
    else selfEscape lexeme c

/-- A back reference by number. -/
def numberedReference (spelled : Text) : Scan Escape := do
  let index := numberIn 10 (spelled.drop 1)
  if index < (← groupCount) then
    match ← closedWidth? index with
    | none => fail .openReference spelled.length
    | some width =>
      checkBehind index
      return .reference index width
  else fail (.invalidReference index) (spelled.length - 1)

/-- An escape outside bracketed sets.  A digit starts an octal code if it is zero or three octal
digits stand together, and a back reference otherwise. -/
def outerEscape (lexeme : Text) (c : Char) (fuel : Nat) : Scan Escape := do
  let ascii := (← get).settings.ascii
  match anchorEscape? ascii c, categoryEscape? c, controlEscape? c with
  | some a, _, _ => return .anchor a
  | none, some (kind, negated), _ => return .category kind negated
  | none, none, some code => return .code code
  | none, none, none =>
    if c = 'x' then hexEscape lexeme 2
    else if c = 'u' then hexEscape lexeme 4
    else if c = 'U' then hexEscape lexeme 8
    else if c = 'N' then namedEscape fuel
    else if c = '0' then
      let digits ← takeWhile isOctalDigit 2
      octalEscape (lexeme ++ digits)
    else if c.isDigit then
      let second ← takeWhile Char.isDigit 1
      let spelled := lexeme ++ second
      let third ← peek
      if isOctalDigit c ∧ second.any isOctalDigit ∧ third.length = 1 ∧ third.all isOctalDigit then
        advance
        octalEscape (spelled ++ third)
      else numberedReference spelled
    else selfEscape lexeme c

end Scan

end Stencil.Pattern
