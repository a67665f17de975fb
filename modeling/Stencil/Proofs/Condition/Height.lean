import Stencil.Proofs.Condition.Tree
import Stencil.Proofs.Script.Exchange

/-!
# Heights of stacks

Whether the instructions of a program fit together can be told without running it.  An instruction
changes the height of the stack and the number of operands in waiting by amounts of its own,
whatever the operands are worth, so the two numbers of a machine (`Load`) can be followed through
the code alone (`Load.afterAll?`).  A program `Fits` if no instruction lacks an operand on this way
and if at its end one operand is left, or two with the `false` at the bottom.

The main statement is `evaluate_fits`.  In a run of a program that fits every instruction finds what
it takes, and an evaluation fails by the values of its operands at most (`Program.ValueFailure`):
the operand that was asked last has failed, and in the same way.  A program that does not fit has no
value, whatever its operands are and however they are resolved.

A step that succeeds moves the machine (`moves_of_step`) and makes of the load what the count says
(`Moves.after?`), and a step that fails does so for a value unless the count fails there, too
(`step_error`).  Runs follow by induction over the code.
-/

namespace Stencil.Condition

open Script (MayEnd mayEnd_bind_ok Exchange EndsAfter endsAfter_ask endsAfter_done
  endsAfter_bind_error endsAfter_map_error)

/-! ## Counting -/

/-- The sizes of a machine: how high its stack is, and how many operands are in waiting. -/
structure Load where
  height : Nat
  waiting : Nat
  deriving DecidableEq, Repr

namespace Load

/-- The load after an instruction; there is none where the instruction lacks an operand.  Truth
values and markers add to the height, a connective puts one operand in the place of two, a negation
one in the place of one, and parentheses do nothing. -/
def after? (l : Load) : Symbol → Option Load
  | .yes | .no => some { l with height := l.height + 1 }
  | .operand =>
    match l.waiting with
    | 0 => none
    | n + 1 => some { height := l.height + 1, waiting := n }
  | .leftParen | .rightParen => some l
  | .negate => if 1 ≤ l.height then some l else none
  | .equals | .less | .more | .modulus | .divide | .either | .both =>
    if 2 ≤ l.height then some { l with height := l.height - 1 } else none

/-- The load after a row of instructions. -/
def afterAll? (l : Load) : List Symbol → Option Load
  | [] => some l
  | s :: code => (l.after? s).bind fun l => l.afterAll? code

/-- Whether a run that comes to its end with a load has a value: one operand is left for it, and at
most one more, the lowest. -/
def Settled (l : Load) : Prop := l.height = 1 ∨ l.height = 2

instance decidableSettled (l : Load) : Decidable l.Settled :=
  inferInstanceAs (Decidable (l.height = 1 ∨ l.height = 2))

end Load

/-- The load of a machine. -/
def Machine.load (m : Machine) : Load := ⟨m.stack.length, m.waiting.length⟩

/-- The load before the first instruction: there is the `false` at the bottom. -/
def Program.load (p : Program) : Load := ⟨1, p.operands.length⟩

/-- Whether the instructions of a program and its operands fit together. -/
def Program.Fits (p : Program) : Prop := ∃ l, p.load.afterAll? p.code = some l ∧ l.Settled

instance Program.decidableFits (p : Program) : Decidable p.Fits :=
  decidable_of_iff ((p.load.afterAll? p.code).any (decide ·.Settled) = true) (by
    simp [Fits, Option.any_eq_true])

lemma Machine.load_start (p : Program) : (Machine.start p).load = p.load := rfl

lemma Load.after?_symbol (l : Load) (c : Connective) :
    l.after? c.symbol = if 2 ≤ l.height then some { l with height := l.height - 1 } else none := by
  cases c <;> rfl

/-- An instruction is a truth value, a marker, a parenthesis, a negation or a connective. -/
lemma Symbol.cases_kind (s : Symbol) :
    (∃ b : Bool, s = if b then .yes else .no) ∨ s = .operand ∨
      (s = .leftParen ∨ s = .rightParen) ∨ s = .negate ∨ ∃ c : Connective, s = c.symbol := by
  cases s with
  | yes => exact .inl ⟨true, rfl⟩
  | no => exact .inl ⟨false, rfl⟩
  | operand => exact .inr (.inl rfl)
  | leftParen => exact .inr (.inr (.inl (.inl rfl)))
  | rightParen => exact .inr (.inr (.inl (.inr rfl)))
  | negate => exact .inr (.inr (.inr (.inl rfl)))
  | equals => exact .inr (.inr (.inr (.inr ⟨.equals, rfl⟩)))
  | less => exact .inr (.inr (.inr (.inr ⟨.less, rfl⟩)))
  | more => exact .inr (.inr (.inr (.inr ⟨.more, rfl⟩)))
  | either => exact .inr (.inr (.inr (.inr ⟨.either, rfl⟩)))
  | both => exact .inr (.inr (.inr (.inr ⟨.both, rfl⟩)))
  | modulus => exact .inr (.inr (.inr (.inr ⟨.modulus, rfl⟩)))
  | divide => exact .inr (.inr (.inr (.inr ⟨.divide, rfl⟩)))

/-! ## Failures of values -/

/-- The faults of instructions that do not fit together. -/
def structuralFaults : List EvaluationFault := [.underflow, .missingOperand, .leftover]

/-- The failures that come of values, where an evaluation has had some exchanges: an operand of the
program was asked last, for its truth or its text, and what it asked of the host made it fail in
just this way; or a text or a number has a fault. -/
inductive Program.ValueFailure (p : Program) (resolver : Resolver) (exchanges : List Exchange) :
    Failure → Prop where
  | truth {o : Operand} {asked : List Exchange} {e : Failure} (ho : o ∈ p.operands)
      (hlast : asked <:+ exchanges) (h : EndsAfter (o.truth resolver) asked (.error e)) :
      ValueFailure p resolver exchanges e
  | text {o : Operand} {asked : List Exchange} {e : Failure} (ho : o ∈ p.operands)
      (hlast : asked <:+ exchanges) (h : EndsAfter (o.text resolver) asked (.error e)) :
      ValueFailure p resolver exchanges e
  | fault {f : EvaluationFault} (hf : f ∉ structuralFaults) :
      ValueFailure p resolver exchanges (p.fault f)
  | pattern (f : Pattern.Fault) : ValueFailure p resolver exchanges (.pattern f)

/-- Asked of the host, a raw text fails only as the host does. -/
lemma Operand.eq_of_ofHost_error {raw : Text} {asked : List Exchange} {e : Failure}
    (h : EndsAfter ((value raw).truth Resolver.ofHost) asked (.error e) ∨
      EndsAfter ((value raw).text Resolver.ofHost) asked (.error e)) :
    asked = [(.resolve (.str raw), .error e)] := by
  have hresolve : EndsAfter (Resolver.ofHost.resolve raw) asked (.error e) :=
    h.elim endsAfter_map_error.1 endsAfter_map_error.1
  obtain ⟨answer, rest, rfl, hdone⟩ := endsAfter_ask.1 hresolve
  obtain ⟨rfl, rfl⟩ := endsAfter_done.1 hdone
  rfl

/-- So where the operands are raw texts, a fault of the instructions is among these failures only if
the host has failed with it. -/
lemma Program.ValueFailure.exists_mem_of_ofHost {p : Program} {exchanges : List Exchange}
    {f : EvaluationFault} (h : p.ValueFailure Resolver.ofHost exchanges (p.fault f))
    (hf : f ∈ structuralFaults) (hvalues : ∀ o ∈ p.operands, ∃ raw, o = .value raw) :
    ∃ q, (q, .error (p.fault f)) ∈ exchanges := by
  generalize he : p.fault f = e at h ⊢
  cases h with
  | @truth o asked _ ho hlast h =>
    obtain ⟨raw, rfl⟩ := hvalues o ho
    obtain rfl := Operand.eq_of_ofHost_error (.inl h)
    exact ⟨_, hlast.subset List.mem_cons_self⟩
  | @text o asked _ ho hlast h =>
    obtain ⟨raw, rfl⟩ := hvalues o ho
    obtain rfl := Operand.eq_of_ofHost_error (.inr h)
    exact ⟨_, hlast.subset List.mem_cons_self⟩
  | @fault g hg =>
    obtain ⟨rfl⟩ : f = g := by simpa [Program.fault] using he
    exact absurd hf hg
  | pattern g => cases he

/-- A script that fails for values at most. -/
def Program.FailsForValues (p : Program) (resolver : Resolver) {α : Type} (x : Script α) : Prop :=
  ∀ exchanges e, EndsAfter x exchanges (.error e) → p.ValueFailure resolver exchanges e

/-- Whether an operand is the result of an operator. -/
def Operand.IsResult : Operand → Prop
  | .literal _ | .computed _ => True
  | .value _ | .call _ => False

/-- A machine with operands of a program and results of operators. -/
def Machine.Holds (p : Program) (m : Machine) : Prop :=
  ∀ o ∈ m.stack ++ m.waiting, o.IsResult ∨ o ∈ p.operands

section Failures

variable {p : Program} {resolver : Resolver} {o : Operand} {e : Failure} {exchanges : List Exchange}

/-- Results are there already, and asking for them does not fail. -/
lemma Operand.IsResult.of_endsAfter (ho : o.IsResult) :
    ¬ EndsAfter (o.truth resolver) exchanges (.error e) ∧
      ¬ EndsAfter (o.text resolver) exchanges (.error e) := by
  cases o with
  | literal b => simp [truth, text]
  | computed t => simp [truth, text]
  | value raw => exact ho.elim
  | call c => exact ho.elim

/-- What an evaluation did before does not matter to who was asked last. -/
lemma Program.ValueFailure.mono {later : List Exchange} (h : p.ValueFailure resolver later e)
    (hlater : later <:+ exchanges) : p.ValueFailure resolver exchanges e := by
  cases h with
  | truth ho hlast h => exact .truth ho (hlast.trans hlater) h
  | text ho hlast h => exact .text ho (hlast.trans hlater) h
  | fault hf => exact .fault hf
  | pattern f => exact .pattern f

namespace Program

lemma failsForValues_pure {α : Type} (a : α) : p.FailsForValues resolver (pure a : Script α) := by
  rintro exchanges e h
  simp at h

lemma failsForValues_throw {α : Type} {e : Failure} (h : p.ValueFailure resolver [] e) :
    p.FailsForValues resolver (throw e : Script α) := by
  intro exchanges e' h'
  obtain ⟨rfl, rfl⟩ : exchanges = [] ∧ e' = e := by simpa using h'
  exact h

lemma FailsForValues.bind {α β : Type} {x : Script α} {f : α → Script β}
    (hx : p.FailsForValues resolver x) (hf : ∀ a, p.FailsForValues resolver (f a)) :
    p.FailsForValues resolver (x >>= f) := by
  intro exchanges e h
  rcases endsAfter_bind_error.1 h with hfirst | ⟨first, a, rest, -, hrest, rfl⟩
  · exact hx exchanges e hfirst
  · exact (hf a rest e hrest).mono (List.suffix_append first rest)

lemma FailsForValues.map {α β : Type} {x : Script α} {f : α → β}
    (hx : p.FailsForValues resolver x) : p.FailsForValues resolver (f <$> x) :=
  fun exchanges e h => hx exchanges e (endsAfter_map_error.1 h)

lemma failsForValues_truth (ho : o.IsResult ∨ o ∈ p.operands) :
    p.FailsForValues resolver (o.truth resolver) := by
  intro exchanges e h
  rcases ho with ho | ho
  · exact absurd h ho.of_endsAfter.1
  · exact .truth ho (List.suffix_refl _) h

lemma failsForValues_text (ho : o.IsResult ∨ o ∈ p.operands) :
    p.FailsForValues resolver (o.text resolver) := by
  intro exchanges e h
  rcases ho with ho | ho
  · exact absurd h ho.of_endsAfter.2
  · exact .text ho (List.suffix_refl _) h

lemma failsForValues_integer (ho : o.IsResult ∨ o ∈ p.operands) :
    p.FailsForValues resolver (o.integer p.fault resolver) := by
  refine (failsForValues_text ho).bind fun t => ?_
  split
  · exact failsForValues_pure _
  · exact failsForValues_throw (.fault (by simp [structuralFaults]))

lemma failsForValues_agrees (subject pattern : Text) :
    p.FailsForValues resolver (agrees p.fault subject pattern) := by
  unfold agrees
  split
  · exact failsForValues_pure _
  · exact failsForValues_throw (.fault (by simp [structuralFaults]))
  · exact failsForValues_throw (.pattern _)

/-- A connective fails by the values of its operands. -/
lemma failsForValues_apply {left right : Operand} (hl : left.IsResult ∨ left ∈ p.operands)
    (hr : right.IsResult ∨ right ∈ p.operands) (c : Connective) :
    p.FailsForValues resolver (c.apply p.fault resolver left right) := by
  -- The right operand is on top of the stack, and so it is asked first.
  cases c with
  | equals =>
    exact (failsForValues_text hr).bind fun pattern => (failsForValues_text hl).bind fun subject =>
      (failsForValues_agrees subject pattern).bind fun _ => failsForValues_pure _
  | less =>
    exact (failsForValues_integer hr).bind fun _ => (failsForValues_integer hl).bind fun _ =>
      failsForValues_pure _
  | more =>
    exact (failsForValues_integer hr).bind fun _ => (failsForValues_integer hl).bind fun _ =>
      failsForValues_pure _
  | either =>
    exact (failsForValues_truth hr).bind fun _ => (failsForValues_truth hl).bind fun _ =>
      failsForValues_pure _
  | both =>
    exact (failsForValues_truth hr).bind fun _ => (failsForValues_truth hl).bind fun _ =>
      failsForValues_pure _
  | modulus =>
    refine (failsForValues_integer hr).bind fun divisor =>
      (failsForValues_integer hl).bind fun dividend => ?_
    split
    · exact failsForValues_throw (.fault (by simp [structuralFaults]))
    · exact failsForValues_pure _
  | divide =>
    refine (failsForValues_integer hr).bind fun divisor =>
      (failsForValues_integer hl).bind fun dividend => ?_
    split
    · exact failsForValues_throw (.fault (by simp [structuralFaults]))
    · exact failsForValues_pure _

end Program

end Failures

lemma Connective.isResult_of_apply {c : Connective} {fail : EvaluationFault → Failure}
    {resolver : Resolver} {left right r : Operand}
    (h : MayEnd (c.apply fail resolver left right) (.ok r)) : r.IsResult := by
  -- Only the operators of division compute a text.
  cases c with
  | modulus =>
    simp only [apply, mayEnd_bind_ok] at h
    obtain ⟨divisor, -, dividend, -, h⟩ := h
    split at h
    · simp at h
    · obtain rfl : r = .computed _ := by simpa using h
      trivial
  | divide =>
    simp only [apply, mayEnd_bind_ok] at h
    obtain ⟨divisor, -, dividend, -, h⟩ := h
    split at h
    · simp at h
    · obtain rfl : r = .computed _ := by simpa using h
      trivial
  | equals =>
    simp only [apply, mayEnd_bind_ok] at h
    obtain ⟨pattern, -, subject, -, b, -, h⟩ := h
    obtain rfl : r = .literal b := by simpa using h
    trivial
  | _ =>
    simp only [apply, mayEnd_bind_ok] at h
    obtain ⟨b, -, a, -, h⟩ := h
    obtain rfl : r = .literal _ := by simpa using h
    trivial

/-! ## Steps -/

/-- What a step makes of a machine: the result of a negation or a connective takes the place of
their operands. -/
inductive Moves : Symbol → Machine → Machine → Prop where
  | truth (b : Bool) (m : Machine) :
      Moves (if b then .yes else .no) m { m with stack := .literal b :: m.stack }
  | take (o : Operand) (stack waiting : List Operand) :
      Moves .operand { stack, waiting := o :: waiting } { stack := o :: stack, waiting }
  | paren {s : Symbol} (hs : s = .leftParen ∨ s = .rightParen) (m : Machine) : Moves s m m
  | negate {r : Operand} (o : Operand) (stack waiting : List Operand) (hr : r.IsResult) :
      Moves .negate { stack := o :: stack, waiting } { stack := r :: stack, waiting }
  | join {r : Operand} (c : Connective) (right left : Operand) (stack waiting : List Operand)
      (hr : r.IsResult) :
      Moves c.symbol { stack := right :: left :: stack, waiting } { stack := r :: stack, waiting }

/-- What a connective asks of the operand on top of the stack. -/
def Connective.askFirst (fail : EvaluationFault → Failure) (resolver : Resolver) (o : Operand) :
    Connective → Script Unit
  | .equals => (fun _ => ()) <$> o.text resolver
  | .less | .more | .modulus | .divide => (fun _ => ()) <$> o.integer fail resolver
  | .either | .both => (fun _ => ()) <$> o.truth resolver

section Steps

variable {p : Program} {resolver : Resolver} {m m' : Machine} {s : Symbol} {e : Failure}
  {exchanges : List Exchange}

lemma popTruth_nil : p.popTruth resolver [] = throw (p.fault .underflow) := rfl

lemma popText_nil : p.popText resolver [] = throw (p.fault .underflow) := rfl

lemma popInteger_nil : p.popInteger resolver [] = throw (p.fault .underflow) := rfl

lemma step_symbol_nil (c : Connective) (waiting : List Operand) :
    p.step resolver { stack := [], waiting } c.symbol = throw (p.fault .underflow) := by
  cases c <;> rfl

/-- With one operand on the stack a connective asks for it before it finds that it has no other. -/
lemma step_symbol_single (c : Connective) (o : Operand) (waiting : List Operand) :
    p.step resolver { stack := [o], waiting } c.symbol =
      c.askFirst p.fault resolver o >>= fun _ => throw (p.fault .underflow) := by
  cases c <;>
    simp [Connective.symbol, Program.step, Connective.askFirst, Program.popTruth_cons,
      Program.popText_cons, Program.popInteger_cons, popTruth_nil, popText_nil, popInteger_nil]

/-- A step that succeeds moves the machine. -/
lemma moves_of_step (h : MayEnd (p.step resolver m s) (.ok m')) : Moves s m m' := by
  obtain ⟨stack, waiting⟩ := m
  -- A case for each kind of instruction; where an operand is missing the step has failed.
  rcases s.cases_kind with ⟨b, rfl⟩ | rfl | hs | rfl | ⟨c, rfl⟩
  · obtain rfl : m' = { stack := .literal b :: stack, waiting } := by
      cases b <;> simpa [Program.step] using h
    exact .truth b { stack, waiting }
  · cases waiting with
    | nil => simp [Program.step, Program.stop_eq] at h
    | cons o waiting =>
      obtain rfl : m' = { stack := o :: stack, waiting } := by simpa [Program.step] using h
      exact .take o stack waiting
  · obtain rfl : m' = { stack, waiting } := by
      rcases hs with rfl | rfl <;> simpa [Program.step] using h
    exact .paren hs _
  · cases stack with
    | nil => simp [Program.step, popTruth_nil] at h
    | cons o stack =>
      rw [Program.step_negate, mayEnd_bind_ok] at h
      obtain ⟨b, -, h⟩ := h
      obtain rfl : m' = { stack := .literal (!b) :: stack, waiting } := by simpa using h
      exact .negate o stack waiting trivial
  · rcases stack with _ | ⟨right, _ | ⟨left, stack⟩⟩
    · simp [step_symbol_nil] at h
    · simp [step_symbol_single, mayEnd_bind_ok] at h
    · rw [Program.step_symbol, mayEnd_bind_ok] at h
      obtain ⟨r, hr, h⟩ := h
      obtain rfl : m' = { stack := r :: stack, waiting } := by simpa using h
      exact .join c right left stack waiting (c.isResult_of_apply hr)

/-- A step counts as a machine moves. -/
lemma Moves.after? (h : Moves s m m') : m.load.after? s = some m'.load := by
  cases h with
  | truth b => cases b <;> rfl
  | take o stack waiting => rfl
  | paren hs => rcases hs with rfl | rfl <;> rfl
  | negate o stack waiting hr => simp [Machine.load, Load.after?]
  | join c right left stack waiting hr => simp [Machine.load, Load.after?_symbol]

/-- A step leaves a program's operands and results of operators. -/
lemma Moves.holds (h : Moves s m m') (hm : m.Holds p) : m'.Holds p := by
  unfold Machine.Holds at hm ⊢
  cases h with
  | truth b m =>
    rw [List.cons_append, List.forall_mem_cons]
    exact ⟨.inl trivial, hm⟩
  | take o stack waiting =>
    simp only [List.forall_mem_append, List.forall_mem_cons] at hm ⊢
    exact ⟨⟨hm.2.1, hm.1⟩, hm.2.2⟩
  | paren hs m => exact hm
  | negate o stack waiting hr =>
    simp only [List.forall_mem_append, List.forall_mem_cons] at hm ⊢
    exact ⟨⟨.inl hr, hm.1.2⟩, hm.2⟩
  | join c right left stack waiting hr =>
    simp only [List.forall_mem_append, List.forall_mem_cons] at hm ⊢
    exact ⟨⟨.inl hr, hm.1.2.2⟩, hm.2⟩

/-- What a connective asks of the operand on top fails by that operand's value. -/
lemma failsForValues_askFirst {o : Operand} (ho : o.IsResult ∨ o ∈ p.operands) (c : Connective) :
    p.FailsForValues resolver (c.askFirst p.fault resolver o) := by
  cases c with
  | equals => exact (Program.failsForValues_text ho).map
  | less => exact (Program.failsForValues_integer ho).map
  | more => exact (Program.failsForValues_integer ho).map
  | either => exact (Program.failsForValues_truth ho).map
  | both => exact (Program.failsForValues_truth ho).map
  | modulus => exact (Program.failsForValues_integer ho).map
  | divide => exact (Program.failsForValues_integer ho).map

/-- A step fails for a value, or it lacks an operand, and then the count fails, too. -/
lemma step_error (hm : m.Holds p) (h : EndsAfter (p.step resolver m s) exchanges (.error e)) :
    p.ValueFailure resolver exchanges e ∨ (m.load.after? s = none ∧
      (e = p.fault .underflow ∨ s = .operand ∧ e = p.fault .missingOperand)) := by
  obtain ⟨stack, waiting⟩ := m
  have hstack : ∀ o ∈ stack, o.IsResult ∨ o ∈ p.operands :=
    fun o ho => hm o (List.mem_append_left _ ho)
  rcases s.cases_kind with ⟨b, rfl⟩ | rfl | hs | rfl | ⟨c, rfl⟩
  · cases b <;> simp [Program.step] at h
  · cases waiting with
    | nil =>
      obtain ⟨-, rfl⟩ : exchanges = [] ∧ e = p.fault .missingOperand := by
        simpa [Program.step, Program.stop_eq] using h
      exact .inr ⟨rfl, .inr ⟨rfl, rfl⟩⟩
    | cons o waiting => simp [Program.step] at h
  · rcases hs with rfl | rfl <;> simp [Program.step] at h
  · cases stack with
    | nil =>
      obtain ⟨-, rfl⟩ : exchanges = [] ∧ e = p.fault .underflow := by
        simpa [Program.step, popTruth_nil] using h
      exact .inr ⟨rfl, .inl rfl⟩
    | cons o stack =>
      rw [Program.step_negate] at h
      have hasked : p.FailsForValues resolver (o.truth resolver) :=
        Program.failsForValues_truth (hstack o (by simp))
      exact .inl (hasked.bind (fun b => Program.failsForValues_pure _) _ _ h)
  · rcases stack with _ | ⟨right, _ | ⟨left, stack⟩⟩
    · obtain ⟨-, rfl⟩ : exchanges = [] ∧ e = p.fault .underflow := by
        simpa [step_symbol_nil] using h
      exact .inr ⟨by rw [Load.after?_symbol]; rfl, .inl rfl⟩
    · -- The one operand is asked before the other is missed, and may fail first.
      rw [step_symbol_single, endsAfter_bind_error] at h
      rcases h with h | ⟨_, _, _, -, h, -⟩
      · exact .inl (failsForValues_askFirst (hstack right (by simp)) c _ _ h)
      · obtain ⟨-, rfl⟩ : _ ∧ e = p.fault .underflow := by simpa using h
        exact .inr ⟨by rw [Load.after?_symbol]; rfl, .inl rfl⟩
    · rw [Program.step_symbol] at h
      have hasked : p.FailsForValues resolver (c.apply p.fault resolver left right) :=
        Program.failsForValues_apply (hstack left (by simp)) (hstack right (by simp)) c
      exact .inl (hasked.bind (fun r => Program.failsForValues_pure _) _ _ h)

end Steps

/-! ## Runs -/

lemma Load.afterAll?_append (l : Load) (first rest : List Symbol) :
    l.afterAll? (first ++ rest) = (l.afterAll? first).bind fun l => l.afterAll? rest := by
  induction first generalizing l with
  | nil => rfl
  | cons s first ih => simp only [List.cons_append, afterAll?, ih, Option.bind_assoc]

section Runs

variable {p : Program} {resolver : Resolver} {m m' : Machine} {code : List Symbol} {e : Failure}
  {exchanges : List Exchange}

/-- A run that comes to its end comes to what the count comes to. -/
lemma afterAll?_of_steps (h : MayEnd (p.steps resolver code m) (.ok m')) :
    m.load.afterAll? code = some m'.load := by
  induction code generalizing m with
  | nil =>
    obtain rfl : m' = m := by simpa [Program.steps] using h
    rfl
  | cons s code ih =>
    rw [Program.steps, mayEnd_bind_ok] at h
    obtain ⟨m₁, hstep, hrest⟩ := h
    rw [Load.afterAll?, (moves_of_step hstep).after?, Option.bind_some, ih hrest]

lemma holds_of_steps (hm : m.Holds p) (h : MayEnd (p.steps resolver code m) (.ok m')) :
    m'.Holds p := by
  induction code generalizing m with
  | nil =>
    obtain rfl : m' = m := by simpa [Program.steps] using h
    exact hm
  | cons s code ih =>
    rw [Program.steps, mayEnd_bind_ok] at h
    obtain ⟨m₁, hstep, hrest⟩ := h
    exact ih ((moves_of_step hstep).holds hm) hrest

/-- A run that fails comes to the step that fails, whose exchanges are the last ones. -/
lemma exists_of_steps_error (h : EndsAfter (p.steps resolver code m) exchanges (.error e)) :
    ∃ before s after m₁ last, code = before ++ s :: after ∧
      MayEnd (p.steps resolver before m) (.ok m₁) ∧ last <:+ exchanges ∧
      EndsAfter (p.step resolver m₁ s) last (.error e) := by
  induction code generalizing m exchanges with
  | nil => simp [Program.steps] at h
  | cons s code ih =>
    rw [Program.steps, endsAfter_bind_error] at h
    rcases h with h | ⟨first, m₁, rest, hstep, h, rfl⟩
    · exact ⟨[], s, code, m, exchanges, rfl, by simp [Program.steps], List.suffix_refl _, h⟩
    · obtain ⟨before, s', after, m₂, last, rfl, hbefore, hlast, h⟩ := ih h
      refine ⟨s :: before, s', after, m₂, last, rfl, ?_,
        hlast.trans (List.suffix_append first rest), h⟩
      rw [Program.steps, mayEnd_bind_ok]
      exact ⟨m₁, hstep.mayEnd, hbefore⟩

lemma finish_cons (o : Operand) (stack waiting : List Operand) :
    p.finish resolver { stack := o :: stack, waiting } =
      o.truth resolver >>= fun b =>
        if 1 < stack.length then throw (p.fault .leftover) else pure b := by
  simp only [Program.finish, Program.popTruth_cons, bind_map_left, Program.stop_eq]

/-- The end of a run has a value only where the count says so. -/
lemma settled_of_finish {b : Bool} (h : MayEnd (p.finish resolver m) (.ok b)) :
    m.load.Settled := by
  obtain ⟨stack, waiting⟩ := m
  cases stack with
  | nil => simp [Program.finish, popTruth_nil] at h
  | cons o stack =>
    rw [finish_cons, mayEnd_bind_ok] at h
    obtain ⟨b', -, h⟩ := h
    split at h
    · simp at h
    · simp only [Machine.load, Load.Settled, List.length_cons]
      omega

/-- The end of a run fails for a value, or it is not settled. -/
lemma finish_error (hm : m.Holds p) (h : EndsAfter (p.finish resolver m) exchanges (.error e)) :
    p.ValueFailure resolver exchanges e ∨
      (¬ m.load.Settled ∧ (e = p.fault .underflow ∨ e = p.fault .leftover)) := by
  obtain ⟨stack, waiting⟩ := m
  cases stack with
  | nil =>
    obtain ⟨-, rfl⟩ : exchanges = [] ∧ e = p.fault .underflow := by
      simpa [Program.finish, popTruth_nil] using h
    exact .inr ⟨by simp [Machine.load, Load.Settled], .inl rfl⟩
  | cons o stack =>
    rw [finish_cons, endsAfter_bind_error] at h
    rcases h with h | ⟨_, b, _, -, h, -⟩
    · exact .inl (Program.failsForValues_truth (hm o (by simp)) _ _ h)
    · split at h
      · rename_i hleft
        obtain ⟨-, rfl⟩ : _ ∧ e = p.fault .leftover := by simpa using h
        refine .inr ⟨?_, .inr rfl⟩
        simp only [Machine.load, Load.Settled, List.length_cons]
        omega
      · simp at h

end Runs

lemma Machine.holds_start (p : Program) : (Machine.start p).Holds p := by
  intro o ho
  rcases List.mem_cons.1 ho with rfl | ho
  · exact .inl trivial
  · exact .inr ho

/-- An evaluation that fails does so for a value, at an instruction that lacks an operand, or at its
end. -/
lemma Program.evaluate_error {p : Program} {resolver : Resolver} {exchanges : List Exchange}
    {e : Failure} (h : EndsAfter (p.evaluate resolver) exchanges (.error e)) :
    p.ValueFailure resolver exchanges e ∨
      (∃ before s after m, p.code = before ++ s :: after ∧
        MayEnd (p.steps resolver before (Machine.start p)) (.ok m) ∧ m.load.after? s = none ∧
        (e = p.fault .underflow ∨ s = .operand ∧ e = p.fault .missingOperand)) ∨
      ∃ m, MayEnd (p.steps resolver p.code (Machine.start p)) (.ok m) ∧ ¬ m.load.Settled ∧
        (e = p.fault .underflow ∨ e = p.fault .leftover) := by
  rw [evaluate, endsAfter_bind_error] at h
  rcases h with h | ⟨first, m, rest, hrun, h, rfl⟩
  · obtain ⟨before, s, after, m, last, hcode, hbefore, hlast, h⟩ := exists_of_steps_error h
    rcases step_error (holds_of_steps (Machine.holds_start p) hbefore) h with h | ⟨hnone, he⟩
    · exact .inl (h.mono hlast)
    · exact .inr (.inl ⟨before, s, after, m, hcode, hbefore, hnone, he⟩)
  · have hholds := holds_of_steps (Machine.holds_start p) hrun.mayEnd
    rcases finish_error hholds h with h | ⟨hleft, he⟩
    · exact .inl (h.mono (List.suffix_append first rest))
    · exact .inr (.inr ⟨m, hrun.mayEnd, hleft, he⟩)

/-- In a run of a program that fits every instruction finds what it takes, and what is left at the
end is what may be left. -/
lemma Program.Fits.of_run {p : Program} (h : p.Fits) (resolver : Resolver) :
    (∀ before s after m, p.code = before ++ s :: after →
      MayEnd (p.steps resolver before (Machine.start p)) (.ok m) → m.load.after? s ≠ none) ∧
    ∀ m, MayEnd (p.steps resolver p.code (Machine.start p)) (.ok m) → m.load.Settled := by
  obtain ⟨l, hcount, hsettled⟩ := h
  constructor
  · intro before s after m hcode hbefore hnone
    rw [hcode, ← Machine.load_start, Load.afterAll?_append, afterAll?_of_steps hbefore,
      Option.bind_some, Load.afterAll?, hnone] at hcount
    simp at hcount
  · intro m hrun
    rw [← Machine.load_start, afterAll?_of_steps hrun] at hcount
    exact Option.some.inj hcount ▸ hsettled

/-- **Whether the instructions of a program fit together is a matter of their number alone.**  If
the count never fails and ends with a height of one or two, then in every run each instruction finds
the operands that it takes, a marker its own, and no operand is left over at the end; so if an
evaluation fails, it is for the operand that was asked last, which failed in this way itself, or for
a text or a number.  Otherwise no evaluation has a value, whatever the operands and the resolver are
and however requests are answered. -/
theorem evaluate_fits (p : Program) (resolver : Resolver) :
    (p.Fits →
      (∀ before s after m, p.code = before ++ s :: after →
        MayEnd (p.steps resolver before (Machine.start p)) (.ok m) → m.load.after? s ≠ none) ∧
      (∀ m, MayEnd (p.steps resolver p.code (Machine.start p)) (.ok m) → m.load.Settled) ∧
      ∀ exchanges e, EndsAfter (p.evaluate resolver) exchanges (.error e) →
        p.ValueFailure resolver exchanges e) ∧
      (¬ p.Fits → ∀ b, ¬ MayEnd (p.evaluate resolver) (.ok b)) := by
  constructor
  · intro hfits
    obtain ⟨hmeets, hends⟩ := hfits.of_run resolver
    refine ⟨hmeets, hends, fun exchanges e h => ?_⟩
    rcases p.evaluate_error h with h | ⟨before, s, after, m, hcode, hbefore, hnone, -⟩ |
        ⟨m, hrun, hleft, -⟩
    · exact h
    · exact absurd hnone (hmeets before s after m hcode hbefore)
    · exact absurd (hends m hrun) hleft
  · intro hfits b h
    rw [Program.evaluate, mayEnd_bind_ok] at h
    obtain ⟨m, hrun, hfinish⟩ := h
    exact hfits ⟨m.load, afterAll?_of_steps hrun, settled_of_finish hfinish⟩

/-- The program of `7/x`. -/
def divisionProgram : Program where
  source := ['7', '/', 'x']
  code := [.operand, .operand, .divide]
  operands := [.value ['7'], .value ['x']]

/-- A program with an operand too many for its operator, and an unmatched parenthesis. -/
def crowdedProgram : Program where
  source := ['(', 'a', '&', 'b', 'c', 'd']
  code := [.operand, .operand, .operand, .operand, .both, .leftParen]
  operands := [.value ['a'], .value ['b'], .value ['c'], .value ['d']]

/-- One program fits, and where the host answers with zero, it fails for that value and not for an
operand that is missing; another does not fit and never has a value. -/
theorem evaluate_fits_division :
    divisionProgram.Fits ∧
      (∀ m, MayEnd (divisionProgram.steps Resolver.ofHost [.operand, .operand]
        (Machine.start divisionProgram)) (.ok m) → m.load.after? .divide ≠ none) ∧
      EndsAfter (divisionProgram.evaluate Resolver.ofHost)
        [(.resolve (.str ['x']), .ok (.int 0)), (.resolve (.str ['7']), .ok (.int 7))]
        (.error (divisionProgram.fault .divisionByZero)) ∧
      divisionProgram.ValueFailure Resolver.ofHost
        [(.resolve (.str ['x']), .ok (.int 0)), (.resolve (.str ['7']), .ok (.int 7))]
        (divisionProgram.fault .divisionByZero) ∧
      ¬ divisionProgram.ValueFailure Resolver.ofHost [] (divisionProgram.fault .underflow) ∧
      ¬ crowdedProgram.Fits ∧
      ∀ resolver b, ¬ MayEnd (crowdedProgram.evaluate resolver) (.ok b) := by
  have hdivision : divisionProgram.Fits := by decide
  have hfails : EndsAfter (divisionProgram.evaluate Resolver.ofHost)
      [(.resolve (.str ['x']), .ok (.int 0)), (.resolve (.str ['7']), .ok (.int 7))]
      (.error (divisionProgram.fault .divisionByZero)) :=
    .ask _ _ (.ask _ _ (.done _))
  have hcrowded : ¬ crowdedProgram.Fits := by decide
  obtain ⟨hmeets, -, hvalues⟩ := (evaluate_fits divisionProgram Resolver.ofHost).1 hdivision
  refine ⟨hdivision, fun m hm => hmeets [.operand, .operand] .divide [] m rfl hm, hfails,
    hvalues _ _ hfails, ?_, hcrowded,
    fun resolver => (evaluate_fits crowdedProgram resolver).2 hcrowded⟩
  intro h
  have hraw : ∀ o ∈ divisionProgram.operands, ∃ raw, o = .value raw := by
    simp [divisionProgram]
  obtain ⟨q, hq⟩ := h.exists_mem_of_ofHost (by decide) hraw
  exact absurd hq List.not_mem_nil

end Stencil.Condition
