import Stencil.Condition.Machine
import Mathlib.Tactic.Lemma

/-!
# Trees of conditions

A condition means a tree of operators over operands.  This file says what a tree evaluates to, by
recursion over the tree and without a stack, and shows that the stack machine agrees: the program
made of the postorder of a tree and its operands evaluates to what the tree does
(`evaluate_program`).

Both sides are scripts, so the agreement is more than one of results.  Equal scripts make the same
requests in the same order, whatever the resolver and the functions are and however their requests
are answered, and they end in the same truth value or the same failure.

Operands are lazy on both sides.  `Tree.reduce` leaves an operand as it is until an operator, or the
end, takes it; an operator takes the right operand before the left one.  What an operator asks of
its operands is stated once, in `Connective.apply`, for operands and not for stacks.

The failures of an evaluation speak of the condition and its instructions.  The tree knows neither,
so its evaluation takes the wording `fail` of a fault as a parameter; `Program.fault` is the one of
a program.
-/

namespace Stencil.Condition

/-! ## Trees -/

/-- An operator between two operands. -/
inductive Connective where
  | equals
  | less
  | more
  | either
  | both
  | modulus
  | divide
  deriving DecidableEq, Repr

/-- The instruction of a connective. -/
def Connective.symbol : Connective → Symbol
  | .equals => .equals
  | .less => .less
  | .more => .more
  | .either => .either
  | .both => .both
  | .modulus => .modulus
  | .divide => .divide

/-- A condition as a tree. -/
inductive Tree where
  | truth (b : Bool)
  | operand (o : Operand)
  | negate (t : Tree)
  | join (c : Connective) (left right : Tree)

namespace Tree

/-- The instructions of a tree in postorder: those of the operands first, then the operator. -/
def postorder : Tree → List Symbol
  | .truth true => [.yes]
  | .truth false => [.no]
  | .operand _ => [.operand]
  | .negate t => t.postorder ++ [.negate]
  | .join c left right => left.postorder ++ right.postorder ++ [c.symbol]

/-- The operands of a tree from left to right, truth values left out. -/
def operands : Tree → List Operand
  | .truth _ => []
  | .operand o => [o]
  | .negate t => t.operands
  | .join _ left right => left.operands ++ right.operands

/-- The program of a tree. -/
def program (source : Text) (t : Tree) : Program where
  source := source
  code := t.postorder
  operands := t.operands

end Tree

/-! ## Evaluation by recursion -/

section Evaluation

variable (fail : EvaluationFault → Failure) (resolver : Resolver)

/-- The integer that the text of an operand spells. -/
def Operand.integer (o : Operand) : Script Int := do
  let t ← o.text resolver
  match Integer.read t with
  | .ok n => pure n
  | .error _ => throw (fail (.notInteger t))

/-- Whether a pattern matches the whole of a subject. -/
def agrees (subject pattern : Text) : Script Bool :=
  match Pattern.fullMatch pattern subject with
  | .ok b => pure b
  | .error (.malformed cause position) => throw (fail (.badPattern pattern cause position))
  | .error fault => throw (.pattern fault)

/-- What a connective makes of two operands.  The right one is asked first: for its text by `=`, for
its integer by the comparisons and the arithmetic, for its truth by `|` and `&`, which ask for both
operands in any case. -/
def Connective.apply : Connective → Operand → Operand → Script Operand
  | .equals, left, right => do
    let pattern ← right.text resolver
    let subject ← left.text resolver
    return .literal (← agrees fail subject pattern)
  | .less, left, right => do
    let n ← right.integer fail resolver
    let m ← left.integer fail resolver
    return .literal (decide (m < n))
  | .more, left, right => do
    let n ← right.integer fail resolver
    let m ← left.integer fail resolver
    return .literal (decide (m > n))
  | .either, left, right => do
    let b ← right.truth resolver
    let a ← left.truth resolver
    return .literal (a || b)
  | .both, left, right => do
    let b ← right.truth resolver
    let a ← left.truth resolver
    return .literal (a && b)
  | .modulus, left, right => do
    let divisor ← right.integer fail resolver
    let dividend ← left.integer fail resolver
    if divisor = 0 then throw (fail .moduloByZero)
    else return .computed (Integer.write (dividend.tmod divisor))
  | .divide, left, right => do
    let divisor ← right.integer fail resolver
    let dividend ← left.integer fail resolver
    if divisor = 0 then throw (fail .divisionByZero)
    else return .computed (Integer.write (dividend.tdiv divisor))

namespace Tree

/-- The operand that a tree comes to: the left subtree first, then the right one, then the operator
between them.  An operand of the tree comes to itself, not yet asked for anything. -/
def reduce : Tree → Script Operand
  | .truth b => pure (.literal b)
  | .operand o => pure o
  | .negate t => do
    let o ← t.reduce
    return .literal (!(← o.truth resolver))
  | .join c left right => do
    let l ← left.reduce
    let r ← right.reduce
    c.apply fail resolver l r

/-- The truth of a tree: that of the operand it comes to. -/
def evaluate (t : Tree) : Script Bool := do
  let o ← t.reduce fail resolver
  o.truth resolver

end Tree

end Evaluation

/-! ## Agreement with the stack machine -/

namespace Program

variable (p : Program) (resolver : Resolver)

/-- The failure that a fault of a program's evaluation is. -/
def fault (f : EvaluationFault) : Failure := .evaluation f p.source p.codeText

lemma stop_eq {α : Type} (f : EvaluationFault) : (p.stop f : Script α) = throw (p.fault f) := rfl

/-- Code runs piece by piece. -/
lemma steps_append (first rest : List Symbol) (m : Machine) :
    p.steps resolver (first ++ rest) m = p.steps resolver first m >>= p.steps resolver rest := by
  induction first generalizing m with
  | nil => simp [steps]
  | cons s first ih => simp [steps, ih]

lemma popTruth_cons (o : Operand) (stack : List Operand) :
    p.popTruth resolver (o :: stack) = (fun b => (b, stack)) <$> o.truth resolver := by
  simp only [popTruth, pop, pure_bind, bind_pure_comp]

lemma popText_cons (o : Operand) (stack : List Operand) :
    p.popText resolver (o :: stack) = (fun t => (t, stack)) <$> o.text resolver := by
  simp only [popText, pop, pure_bind, bind_pure_comp]

lemma popInteger_cons (o : Operand) (stack : List Operand) :
    p.popInteger resolver (o :: stack) =
      (fun n => (n, stack)) <$> o.integer p.fault resolver := by
  simp only [popInteger, popText_cons, Operand.integer, bind_map_left, bind_pure_comp, map_bind]
  rfl

/-- With two operands on the stack an operator's instruction replaces them by what the operator
makes of them.  The operand pushed last is the right one. -/
lemma step_symbol (c : Connective) (left right : Operand) (stack waiting : List Operand) :
    p.step resolver { stack := right :: left :: stack, waiting } c.symbol =
      c.apply p.fault resolver left right >>= fun o =>
        pure { stack := o :: stack, waiting } := by
  -- By its definition a step takes the operands from the stack one after the other, and coerces
  -- each before it takes the next.
  cases c with
  | equals =>
    have hcompare : ∀ s t, p.compare s t = agrees p.fault s t := fun _ _ => rfl
    simp [Connective.symbol, step, Connective.apply, popText_cons, hcompare]
  | less => simp [Connective.symbol, step, Connective.apply, popInteger_cons]
  | more => simp [Connective.symbol, step, Connective.apply, popInteger_cons]
  | either => simp [Connective.symbol, step, Connective.apply, popTruth_cons]
  | both => simp [Connective.symbol, step, Connective.apply, popTruth_cons]
  | modulus =>
    simp only [Connective.symbol, step, Connective.apply, popInteger_cons, bind_map_left,
      bind_assoc]
    congr; funext divisor; congr; funext dividend
    by_cases hd : divisor = 0 <;> simp [remainder, hd, stop_eq]
  | divide =>
    simp only [Connective.symbol, step, Connective.apply, popInteger_cons, bind_map_left,
      bind_assoc]
    congr; funext divisor; congr; funext dividend
    by_cases hd : divisor = 0 <;> simp [quotient, hd, stop_eq]

lemma step_negate (o : Operand) (stack waiting : List Operand) :
    p.step resolver { stack := o :: stack, waiting } .negate =
      o.truth resolver >>= fun b => pure { stack := .literal (!b) :: stack, waiting } := by
  simp [step, popTruth_cons]

/-- The postorder of a tree leaves on the stack the operand that the tree comes to.  The code that
follows, the stack below and the operands still waiting are arbitrary, which is what lets a
subtree's code run in the middle of the whole. -/
lemma steps_postorder (t : Tree) (stack waiting : List Operand) :
    p.steps resolver t.postorder { stack, waiting := t.operands ++ waiting } =
      t.reduce p.fault resolver >>= fun o => pure { stack := o :: stack, waiting } := by
  induction t generalizing stack waiting with
  | truth b => cases b <;> simp [Tree.postorder, Tree.operands, Tree.reduce, steps, step]
  | operand o => simp [Tree.postorder, Tree.operands, Tree.reduce, steps, step]
  | negate t ih =>
    simp [Tree.postorder, Tree.operands, Tree.reduce, steps_append, ih, steps, step_negate]
  | join c left right ihl ihr =>
    simp only [Tree.postorder, Tree.operands, Tree.reduce, steps_append, List.append_assoc, ihl,
      ihr, bind_assoc, pure_bind, steps, step_symbol, bind_pure]

/-- With one operand above the lowest one a run ends in the operand's truth. -/
lemma finish_single (o lowest : Operand) :
    p.finish resolver { stack := [o, lowest], waiting := [] } = o.truth resolver := by
  simp [finish, popTruth_cons]

end Program

/-- **The stack machine computes the tree.**  The program made of a tree's postorder and its
operands is, as a script, the evaluation of the tree by recursion: the same requests of the resolver
and the functions in the same order, and the same truth value or the same failure at the end.  The
failures are worded with the condition and with the instructions of the tree. -/
theorem evaluate_program (source : Text) (t : Tree) (resolver : Resolver) :
    (t.program source).evaluate resolver =
      t.evaluate (fun f => .evaluation f source (t.postorder.map Symbol.char)) resolver := by
  have hrun := (t.program source).steps_postorder resolver t [.literal false] []
  rw [List.append_nil] at hrun
  calc (t.program source).evaluate resolver
      = t.reduce (t.program source).fault resolver >>= fun o =>
          (t.program source).finish resolver { stack := [o, .literal false], waiting := [] } := by
        simp only [Program.evaluate, Machine.start, Tree.program] at hrun ⊢
        rw [hrun]
        simp only [bind_assoc, pure_bind]
    _ = t.evaluate (t.program source).fault resolver := by
        simp only [Program.finish_single, Tree.evaluate]

end Stencil.Condition
