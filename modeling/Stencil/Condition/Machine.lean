import Stencil.Condition.Program
import Stencil.Pattern.Match

/-!
# Evaluation of compiled conditions

A program runs on a stack of operands.  Operands are pushed as they are; an operator takes its
operands from the stack, the right one first, and only then asks for their truth, text or number.
Below everything lies one `false`, so that a lone operator has an operand to work on; it may be
left over at the end.
-/

namespace Stencil.Condition

/-! ## The machine -/

/-- The state of a run: the stack, and the operands that markers have still to be given. -/
structure Machine where
  stack : List Operand
  waiting : List Operand

/-- The state before the first instruction. -/
def Machine.start (p : Program) : Machine := { stack := [.literal false], waiting := p.operands }

namespace Program

/-- Stops the evaluation. -/
def stop {α : Type} (p : Program) (fault : EvaluationFault) : Script α :=
  throw (.evaluation fault p.source p.codeText)

/-- Takes the operand on top of a stack. -/
def pop (p : Program) : List Operand → Script (Operand × List Operand)
  | [] => p.stop .underflow
  | o :: stack => pure (o, stack)

/-- Takes the operand on top of a stack for its truth. -/
def popTruth (p : Program) (resolver : Resolver) (stack : List Operand) :
    Script (Bool × List Operand) := do
  let (o, stack) ← p.pop stack
  return (← o.truth resolver, stack)

/-- Takes the operand on top of a stack for its text. -/
def popText (p : Program) (resolver : Resolver) (stack : List Operand) :
    Script (Text × List Operand) := do
  let (o, stack) ← p.pop stack
  return (← o.text resolver, stack)

/-- The integer that a text spells. -/
def integerOf (p : Program) (t : Text) : Script Int :=
  match Integer.read t with
  | .ok n => pure n
  | .error _ => p.stop (.notInteger t)

/-- Takes the operand on top of a stack for its integer. -/
def popInteger (p : Program) (resolver : Resolver) (stack : List Operand) :
    Script (Int × List Operand) := do
  let (t, stack) ← p.popText resolver stack
  return (← p.integerOf t, stack)

/-! ## Operators -/

/-- Whether a pattern matches the whole of a subject. -/
def compare (p : Program) (subject pattern : Text) : Script Bool :=
  match Pattern.fullMatch pattern subject with
  | .ok b => pure b
  | .error (.malformed cause position) => p.stop (.badPattern pattern cause position)
  | .error fault => throw (.pattern fault)

/-- The quotient of two integers, cut off towards zero. -/
def quotient (p : Program) (left right : Int) : Script Int :=
  if right = 0 then p.stop .divisionByZero else pure (left.tdiv right)

/-- What division leaves, with the sign of the dividend. -/
def remainder (p : Program) (left right : Int) : Script Int :=
  if right = 0 then p.stop .moduloByZero else pure (left.tmod right)

/-- One instruction.  A parenthesis among the instructions has no effect. -/
def step (p : Program) (resolver : Resolver) (m : Machine) (s : Symbol) : Script Machine :=
  match s with
  | .yes => pure { m with stack := .literal true :: m.stack }
  | .no => pure { m with stack := .literal false :: m.stack }
  | .operand =>
    match m.waiting with
    | [] => p.stop .missingOperand
    | o :: waiting => pure { stack := o :: m.stack, waiting }
  | .leftParen => pure m
  | .rightParen => pure m
  | .equals => do
    let (pattern, stack) ← p.popText resolver m.stack
    let (subject, stack) ← p.popText resolver stack
    return { m with stack := .literal (← p.compare subject pattern) :: stack }
  | .less => do
    let (right, stack) ← p.popInteger resolver m.stack
    let (left, stack) ← p.popInteger resolver stack
    return { m with stack := .literal (decide (left < right)) :: stack }
  | .more => do
    let (right, stack) ← p.popInteger resolver m.stack
    let (left, stack) ← p.popInteger resolver stack
    return { m with stack := .literal (decide (left > right)) :: stack }
  | .modulus => do
    let (right, stack) ← p.popInteger resolver m.stack
    let (left, stack) ← p.popInteger resolver stack
    return { m with stack := .computed (Integer.write (← p.remainder left right)) :: stack }
  | .divide => do
    let (right, stack) ← p.popInteger resolver m.stack
    let (left, stack) ← p.popInteger resolver stack
    return { m with stack := .computed (Integer.write (← p.quotient left right)) :: stack }
  | .either => do
    let (right, stack) ← p.popTruth resolver m.stack
    let (left, stack) ← p.popTruth resolver stack
    return { m with stack := .literal (left || right) :: stack }
  | .both => do
    let (right, stack) ← p.popTruth resolver m.stack
    let (left, stack) ← p.popTruth resolver stack
    return { m with stack := .literal (left && right) :: stack }
  | .negate => do
    let (b, stack) ← p.popTruth resolver m.stack
    return { m with stack := .literal (!b) :: stack }

/-! ## Runs -/

/-- Runs instructions one after the other. -/
def steps (p : Program) (resolver : Resolver) : List Symbol → Machine → Script Machine
  | [], m => pure m
  | s :: code, m => do
    let m ← p.step resolver m s
    steps p resolver code m

/-- The result of a run that has come to the end of the code: the truth of the operand on top.
Besides it only the `false` at the bottom may be left. -/
def finish (p : Program) (resolver : Resolver) (m : Machine) : Script Bool := do
  let (b, stack) ← p.popTruth resolver m.stack
  if 1 < stack.length then p.stop .leftover else return b

/-- The truth of a compiled condition. -/
def evaluate (p : Program) (resolver : Resolver) : Script Bool := do
  let m ← p.steps resolver p.code (Machine.start p)
  p.finish resolver m

end Program

/-- Compiles a condition and evaluates it. -/
def evaluate (functions : FunctionRegistry) (resolver : Resolver) (condition : Option Text) :
    Script Bool := do
  let p ← Script.ofExcept (Program.compile functions condition)
  p.evaluate resolver

end Stencil.Condition
