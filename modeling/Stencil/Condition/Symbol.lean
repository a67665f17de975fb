import Stencil.Text.Basic

/-!
# Symbols of conditions

The instructions that a condition is compiled to: ten operators and parentheses, the two truth
values, and a marker for every other operand.  Each has a character, and each operator a
precedence; an operator with a higher one binds tighter.
-/

namespace Stencil.Condition

/-- An instruction. -/
inductive Symbol where
  | leftParen
  | rightParen
  | equals
  | less
  | more
  | modulus
  | divide
  | either
  | both
  | negate
  | yes
  | no
  | operand
  deriving DecidableEq, Repr

namespace Symbol

/-! ## Characters -/

/-- All instructions, operators first. -/
def all : List Symbol :=
  [.leftParen, .rightParen, .equals, .less, .more, .modulus, .divide, .either, .both, .negate,
   .yes, .no, .operand]

/-- The character of an instruction. -/
def char : Symbol → Char
  | .leftParen => '('
  | .rightParen => ')'
  | .equals => '='
  | .less => '<'
  | .more => '>'
  | .modulus => '%'
  | .divide => '/'
  | .either => '|'
  | .both => '&'
  | .negate => '!'
  | .yes => 't'
  | .no => 'f'
  | .operand => 'F'

/-- Whether an instruction stands for an operand. -/
def isOperand : Symbol → Bool
  | .yes | .no | .operand => true
  | _ => false

/-- The instruction of a character. -/
def ofChar? (c : Char) : Option Symbol := all.find? fun s => s.char == c

/-- The operator of a character, parentheses included. -/
def operator? (c : Char) : Option Symbol :=
  all.find? fun s => !s.isOperand && s.char == c

/-- Whether a character is an operator, and so ends a word. -/
def isOperatorChar (c : Char) : Bool := (operator? c).isSome

theorem ofChar?_char (s : Symbol) : ofChar? s.char = some s := by cases s <;> rfl

theorem char_injective {s t : Symbol} (h : s.char = t.char) : s = t := by
  have := congrArg ofChar? h
  rw [ofChar?_char, ofChar?_char] at this
  exact Option.some.inj this

/-! ## Precedence -/

/-- How tightly an instruction binds. -/
def precedence : Symbol → Nat
  | .leftParen => 1
  | .equals => 2
  | .less => 4
  | .more => 4
  | .either => 8
  | .both => 16
  | .modulus => 32
  | .divide => 32
  | .negate => 64
  | .rightParen => 999
  | .yes | .no | .operand => 1

end Symbol

end Stencil.Condition
