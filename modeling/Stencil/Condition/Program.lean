import Stencil.Condition.Token

/-!
# Compiled conditions

A condition is compiled to a row of instructions in which every operator stands after its operands,
together with the operands that the markers in the row refer to, in the order of the markers.

## Contents

* `arrange`, which moves operators behind their operands with the help of a stack.
* `Program` and `Program.compile`.
* The two ways of showing a program: by its instructions alone, and with its operands written out.
-/

namespace Stencil.Condition

/-! ## Order of instructions -/

/-- The operators that an arriving one sends to the output: those on top of the stack that bind at
least as tightly. -/
def tighter (s : Symbol) (stack : List Symbol) : List Symbol :=
  stack.takeWhile fun top => decide (s.precedence ≤ top.precedence)

/-- The operators that stay. -/
def looser (s : Symbol) (stack : List Symbol) : List Symbol :=
  stack.dropWhile fun top => decide (s.precedence ≤ top.precedence)

/-- Moves operators behind their operands.  The stack holds the operators that wait for their right
operand, last one first.  A closing parenthesis ends the wait of those since the opening one; an
opening one that is never closed ends up among the instructions. -/
def arrange (stack : List Symbol) : List Symbol → List Symbol
  | [] => stack
  | s :: rest =>
    match s with
    | .yes | .no | .operand => s :: arrange stack rest
    | .leftParen => arrange (.leftParen :: stack) rest
    | .rightParen =>
      stack.takeWhile (· != .leftParen) ++ arrange ((stack.dropWhile (· != .leftParen)).tail) rest
    | s => tighter s stack ++ arrange (s :: looser s stack) rest

/-! ## Programs -/

/-- A compiled condition. -/
structure Program where
  /-- The condition without its whitespace. -/
  source : Text
  code : List Symbol
  /-- The operands that the markers in the code stand for, in order. -/
  operands : List Operand

namespace Program

/-- The program of a row of tokens. -/
def ofTokens (source : Text) (tokens : List Token) : Program :=
  { source
    code := arrange [] (tokens.map Token.symbol)
    operands := tokens.filterMap Token.operand? }

/-- Compiles a condition; no condition at all counts as `false`. -/
def compile (functions : FunctionRegistry) (condition : Option Text) : Except Failure Program :=
  let source := Text.withoutBlanks (condition.getD ['f', 'a', 'l', 's', 'e'])
  match tokensOf functions source source with
  | .ok tokens => .ok (ofTokens source tokens)
  | .error e => .error e

/-! ## Showing programs -/

/-- The characters of the instructions. -/
def codeText (p : Program) : Text := p.code.map Symbol.char

/-- Instructions with their operands written out; markers beyond the operands stay as they are. -/
def writeOut (resolver : Resolver) : List Symbol → List Operand → Script Text
  | [], _ => pure []
  | .operand :: code, o :: operands => do
    let t ← o.spelling resolver
    return t ++ (← writeOut resolver code operands)
  | .yes :: code, operands => do
    return Value.boolText true ++ (← writeOut resolver code operands)
  | .no :: code, operands => do
    return Value.boolText false ++ (← writeOut resolver code operands)
  | s :: code, operands => do
    return s.char :: (← writeOut resolver code operands)

/-- The condition and its program, side by side. -/
def text (resolver : Resolver) (p : Program) : Script Text := do
  let code ← writeOut resolver p.code p.operands
  return p.source ++ ' ' :: '=' :: ' ' :: code

end Program

end Stencil.Condition
