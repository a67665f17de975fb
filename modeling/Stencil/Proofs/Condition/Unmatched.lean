import Mathlib.Data.List.TakeWhile
import Stencil.Proofs.Condition.Conservation
import Stencil.Proofs.Condition.Reading

/-!
# Unmatched parentheses

Parentheses that match nothing are no fault of a condition.  A closing one ends the wait of all
operators before it, as if the condition had begun with an opening one; an opening one stays among
the instructions, where it has no effect.  So a condition with parentheses missing means what it
means with the missing ones put at its two ends.

`completed` is a row of instructions with these parentheses, as many in front as there are closing
ones without an opening one (`unopened`), and as many behind as there are opening ones without a
closing one (`unclosed`).  The main statement is `arrange_completed`: nothing in the completed row
is unmatched, it is arranged as the row itself is, the opening parentheses in the latter's
arrangement apart, and the two evaluate alike.

The two arrangements go side by side.  Their stacks are the same but for opening parentheses at the
bottom, one for each closing parenthesis still to come that matches nothing, and an instruction does
not see them (`exists_shifts_above`) unless it is such a closing parenthesis, which takes one away.
-/

namespace Stencil.Condition

/-! ## Completed rows -/

/-- The closing parentheses of a row that close nothing, where `n` are open before it. -/
def unopened (n : Nat) : List Symbol → Nat
  | [] => 0
  | .leftParen :: row => unopened (n + 1) row
  | .rightParen :: row => unopened (n - 1) row + (1 - n)
  | _ :: row => unopened n row

/-- A row with its missing parentheses at the ends. -/
def completed (row : List Symbol) : List Symbol :=
  List.replicate (unopened 0 row) .leftParen ++ row ++ List.replicate (unclosed 0 row) .rightParen

lemma unopened_cons {s : Symbol} {n : Nat} (h : s = .rightParen → n ≠ 0) (row : List Symbol) :
    unopened n (s :: row) = unopened (s.depthAfter n) row := by
  cases s with
  | rightParen =>
    have hn := h rfl
    rw [unopened, show 1 - n = 0 by omega, Nat.add_zero]
    rfl
  | _ => rfl

/-- Opening parentheses in front of a row match closing ones that match nothing, as far as there
are any. -/
lemma unopened_add (n k : Nat) (row : List Symbol) :
    unopened (n + k) row = unopened n row - k := by
  induction row generalizing n k with
  | nil => simp [unopened]
  | cons s row ih =>
    cases s with
    | leftParen =>
      simp only [unopened]
      rw [← ih (n + 1) k, Nat.add_right_comm]
    | rightParen =>
      simp only [unopened]
      -- With nothing open the closing parenthesis uses up one of those in front.
      cases n with
      | zero =>
        cases k with
        | zero => rfl
        | succ k =>
          have hstep := ih 0 k
          simp only [Nat.zero_add, Nat.add_sub_cancel, Nat.zero_sub] at hstep ⊢
          omega
      | succ n =>
        have hstep := ih n k
        have hsub : n + 1 + k - 1 = n + k := by omega
        simp only [Nat.add_sub_cancel, hsub]
        omega
    | _ => exact ih n k

/-- What closing parentheses match nothing does not matter to what is open in the end. -/
lemma unclosed_add_unopened (n : Nat) (row : List Symbol) :
    unclosed (n + unopened n row) row = unclosed n row := by
  induction row generalizing n with
  | nil => rfl
  | cons s row ih =>
    cases s with
    | leftParen =>
      simp only [unclosed, unopened]
      rw [← ih (n + 1), Nat.add_right_comm]
    | rightParen =>
      simp only [unclosed, unopened]
      rw [← ih (n - 1)]
      congr 1
      omega
    | _ => exact ih n

lemma unopened_append_closing (n k : Nat) (row : List Symbol) :
    unopened n (row ++ List.replicate k .rightParen) =
      unopened n row + (k - unclosed n row) := by
  induction row generalizing n with
  | nil =>
    rw [List.nil_append]
    induction k generalizing n with
    | zero => simp [unopened]
    | succ k ih =>
      simp only [List.replicate_succ, unopened, unclosed, ih] at ih ⊢
      omega
  | cons s row ih =>
    cases s with
    | rightParen =>
      simp only [List.cons_append, unopened, unclosed, ih]
      omega
    | _ => exact ih _

lemma unclosed_append_closing (n k : Nat) (row : List Symbol) :
    unclosed n (row ++ List.replicate k .rightParen) = unclosed n row - k := by
  induction row generalizing n with
  | nil =>
    rw [List.nil_append]
    induction k generalizing n with
    | zero => rfl
    | succ k ih =>
      simp only [List.replicate_succ, unclosed, ih] at ih ⊢
      omega
  | cons s row ih => cases s <;> exact ih _

lemma unopened_opening_append (n k : Nat) (row : List Symbol) :
    unopened n (List.replicate k .leftParen ++ row) = unopened (n + k) row := by
  induction k generalizing n with
  | zero => rfl
  | succ k ih =>
    rw [List.replicate_succ, List.cons_append, unopened, ih, Nat.add_right_comm, Nat.add_assoc]

lemma unclosed_opening_append (n k : Nat) (row : List Symbol) :
    unclosed n (List.replicate k .leftParen ++ row) = unclosed (n + k) row := by
  induction k generalizing n with
  | zero => rfl
  | succ k ih =>
    rw [List.replicate_succ, List.cons_append, unclosed, ih, Nat.add_right_comm, Nat.add_assoc]

/-- In a completed row every parenthesis has a match. -/
lemma matched_completed (row : List Symbol) :
    unopened 0 (completed row) = 0 ∧ unclosed 0 (completed row) = 0 := by
  have hunclosed : unclosed (0 + unopened 0 row) row = unclosed 0 row :=
    unclosed_add_unopened 0 row
  constructor
  · rw [completed, List.append_assoc, unopened_opening_append, unopened_append_closing, hunclosed,
      unopened_add]
    omega
  · rw [completed, List.append_assoc, unclosed_opening_append, unclosed_append_closing, hunclosed]
    omega

/-! ## Arrangements side by side -/

/-- An operator does not send out opening parentheses at the bottom of the stack. -/
lemma tighter_above {s : Symbol} (hs : 1 < s.precedence) (stack : List Symbol) (n : Nat) :
    tighter s (stack ++ List.replicate n .leftParen) = tighter s stack ∧
      looser s (stack ++ List.replicate n .leftParen) =
        looser s stack ++ List.replicate n .leftParen := by
  have hlow : ¬ s.precedence ≤ Symbol.leftParen.precedence := Nat.not_le.2 hs
  induction stack with
  | nil =>
    cases n with
    | zero => exact ⟨rfl, rfl⟩
    | succ n => simp [tighter, looser, List.replicate_succ, hlow]
  | cons a stack ih =>
    by_cases ha : s.precedence ≤ a.precedence
    · simpa [tighter, looser, ha] using ih
    · simp [tighter, looser, ha]

/-- An instruction does the same above opening parentheses, unless it is a closing one that matches
nothing. -/
lemma exists_shifts_above {s : Symbol} {stack : List Symbol}
    (h : s = .rightParen → .leftParen ∈ stack) :
    ∃ out stack', Shifts s stack out stack' ∧ ∀ n row,
      arrange (stack ++ List.replicate n .leftParen) (s :: row) =
        out ++ arrange (stack' ++ List.replicate n .leftParen) row := by
  -- No operator is tighter than an opening parenthesis, so those at the bottom of the stack stay.
  have operator (hprec : 1 < s.precedence) (hs : s.isOperand = false) (hopening : s ≠ .leftParen)
      (hclosing : s ≠ .rightParen) (hgo : ∀ stack row, arrange stack (s :: row) =
        tighter s stack ++ arrange (s :: looser s stack) row) :
      ∃ out stack', Shifts s stack out stack' ∧ ∀ n row,
        arrange (stack ++ List.replicate n .leftParen) (s :: row) =
          out ++ arrange (stack' ++ List.replicate n .leftParen) row := by
    refine ⟨_, _, shifts_operator hprec hs hopening hclosing stack, fun n row => ?_⟩
    obtain ⟨htighter, hlooser⟩ := tighter_above hprec stack n
    rw [hgo, htighter, hlooser, List.cons_append]
  cases s with
  | yes => exact ⟨_, _, .operand rfl stack, fun _ _ => rfl⟩
  | no => exact ⟨_, _, .operand rfl stack, fun _ _ => rfl⟩
  | operand => exact ⟨_, _, .operand rfl stack, fun _ _ => rfl⟩
  | leftParen => exact ⟨_, _, .opening stack, fun _ _ => rfl⟩
  | rightParen =>
    obtain ⟨out, below, rfl, hout⟩ := List.eq_append_cons_of_mem (h rfl)
    refine ⟨out, below, .closing hout below, fun n row => ?_⟩
    rw [List.append_assoc, List.cons_append, Layout.arrange_close hout]
  | _ => exact operator (by decide) rfl (by decide) (by decide) fun _ _ => rfl

lemma filter_of_leftParen_notMem {out : List Symbol} (h : .leftParen ∉ out) :
    out.filter (· != .leftParen) = out := List.filter_eq_self.2 (Layout.forall_ne_leftParen h)

/-- Closing parentheses at the end of a row take away the opening ones that are left, and send out
everything else. -/
lemma arrange_closing (stack : List Symbol) :
    arrange stack (List.replicate (stack.count .leftParen) .rightParen) =
      stack.filter (· != .leftParen) := by
  induction hn : stack.count .leftParen generalizing stack with
  | zero =>
    rw [filter_of_leftParen_notMem (List.count_eq_zero.1 hn)]
    rfl
  | succ n ih =>
    have hmem : Symbol.leftParen ∈ stack := List.count_pos_iff.1 (by omega)
    obtain ⟨out, below, rfl, hout⟩ := List.eq_append_cons_of_mem hmem
    have hbelow : below.count .leftParen = n := by
      simpa [List.count_append, List.count_eq_zero.2 hout] using hn
    rw [List.replicate_succ, Layout.arrange_close hout, ih below hbelow, List.filter_append,
      filter_of_leftParen_notMem hout]
    simp

/-- A closing parenthesis that matches nothing matches an opening one at the bottom. -/
lemma arrange_unmatched {stack : List Symbol} (h : .leftParen ∉ stack) (n : Nat)
    (row : List Symbol) :
    arrange stack (.rightParen :: row) = stack ++ arrange [] row ∧
      arrange (stack ++ List.replicate (n + 1) .leftParen) (.rightParen :: row) =
        stack ++ arrange ([] ++ List.replicate n .leftParen) row := by
  have hall := Layout.forall_ne_leftParen h
  constructor
  · simp only [arrange, List.takeWhile_eq_self_iff.2 hall, List.dropWhile_eq_nil_iff.2 hall,
      List.tail_nil]
  · rw [List.replicate_succ, Layout.arrange_close h, List.nil_append]

/-- A row arranges as it does with its missing parentheses, whatever is on the stack.  Those missing
in front are at the bottom of the stack. -/
lemma filter_arrange_eq (stack row : List Symbol) :
    (arrange stack row).filter (· != .leftParen) =
      arrange (stack ++ List.replicate (unopened (stack.count .leftParen) row) .leftParen)
        (row ++ List.replicate (unclosed (stack.count .leftParen) row) .rightParen) := by
  induction row generalizing stack with
  | nil =>
    simp only [unopened, List.replicate_zero, List.append_nil, List.nil_append]
    exact (arrange_closing stack).symm
  | cons s row ih =>
    -- A closing parenthesis without a match empties the stack; everything else does the same above
    -- the added ones.
    by_cases h : s = .rightParen → .leftParen ∈ stack
    · obtain ⟨out, stack', hshifts, hgo⟩ := exists_shifts_above h
      have hcount : s = .rightParen → stack.count .leftParen ≠ 0 := by
        intro hs hzero
        exact List.count_eq_zero.1 hzero (h hs)
      have hout := filter_of_leftParen_notMem hshifts.leftParen_notMem
      have hplain := hgo 0 row
      simp only [List.replicate_zero, List.append_nil] at hplain
      rw [hplain, List.filter_append, hout, ih stack', List.cons_append, hgo,
        unopened_cons hcount, unclosed_cons, ← hshifts.count_leftParen]
    · obtain ⟨rfl, hnone⟩ : s = .rightParen ∧ .leftParen ∉ stack := by simpa using h
      have hzero : stack.count .leftParen = 0 := List.count_eq_zero.2 hnone
      have hout := filter_of_leftParen_notMem hnone
      have hpadded := (arrange_unmatched hnone (unopened 0 row)
        (row ++ List.replicate (unclosed 0 row) .rightParen)).2
      rw [(arrange_unmatched hnone 0 row).1, List.filter_append, hout, ih [], hzero,
        unclosed_cons]
      exact hpadded.symm

lemma arrange_opening (stack : List Symbol) (n : Nat) (row : List Symbol) :
    arrange stack (List.replicate n .leftParen ++ row) =
      arrange (List.replicate n .leftParen ++ stack) row := by
  induction n generalizing stack with
  | zero => rfl
  | succ n ih =>
    calc arrange stack (List.replicate (n + 1) .leftParen ++ row)
        = arrange (.leftParen :: stack) (List.replicate n .leftParen ++ row) := rfl
      _ = arrange (List.replicate n .leftParen ++ .leftParen :: stack) row := ih _
      _ = arrange (List.replicate (n + 1) .leftParen ++ stack) row := by
        rw [List.replicate_succ', List.append_assoc, List.singleton_append]

/-- The completed row has the instructions of the row itself without the opening parentheses. -/
lemma arrange_completed_eq (row : List Symbol) :
    arrange [] (completed row) = (arrange [] row).filter (· != .leftParen) := by
  rw [filter_arrange_eq, completed, List.append_assoc, arrange_opening, List.append_nil,
    List.nil_append, List.count_nil]

/-! ## Evaluations side by side -/

/-- Two scripts that make the same requests, and come to the same values or to failures of the same
cause. -/
def SameCause {α : Type} (x y : Script α) : Prop :=
  x.mapFailure Failure.cause = y.mapFailure Failure.cause

section SameCause

variable {α β : Type}

lemma SameCause.refl (x : Script α) : SameCause x x := rfl

lemma SameCause.bind {x y : Script α} {f g : α → Script β} (hxy : SameCause x y)
    (hfg : ∀ a, SameCause (f a) (g a)) : SameCause (x >>= f) (y >>= g) := by
  unfold SameCause at hxy hfg ⊢
  simp only [Script.mapFailure_bind, hxy, hfg]

end SameCause

namespace Program

section Steps

variable (p q : Program) (resolver : Resolver)

lemma sameCause_stop {α : Type} (fault : EvaluationFault) :
    SameCause (p.stop fault : Script α) (q.stop fault) := rfl

lemma sameCause_popTruth (stack : List Operand) :
    SameCause (p.popTruth resolver stack) (q.popTruth resolver stack) := by
  cases stack with
  | nil => exact sameCause_stop p q _
  | cons o stack => rw [popTruth_cons, popTruth_cons]; exact .refl _

lemma sameCause_popText (stack : List Operand) :
    SameCause (p.popText resolver stack) (q.popText resolver stack) := by
  cases stack with
  | nil => exact sameCause_stop p q _
  | cons o stack => rw [popText_cons, popText_cons]; exact .refl _

lemma sameCause_integerOf (t : Text) : SameCause (p.integerOf t) (q.integerOf t) := by
  unfold integerOf
  split
  · exact .refl _
  · exact sameCause_stop p q _

lemma sameCause_popInteger (stack : List Operand) :
    SameCause (p.popInteger resolver stack) (q.popInteger resolver stack) :=
  (sameCause_popText p q resolver stack).bind fun (t, _) =>
    (sameCause_integerOf p q t).bind fun _ => .refl _

lemma sameCause_compare (subject pattern : Text) :
    SameCause (p.compare subject pattern) (q.compare subject pattern) := by
  unfold compare
  split
  · exact .refl _
  · exact sameCause_stop p q _
  · exact .refl _

lemma sameCause_quotient (left right : Int) :
    SameCause (p.quotient left right) (q.quotient left right) := by
  unfold quotient
  split
  · exact sameCause_stop p q _
  · exact .refl _

lemma sameCause_remainder (left right : Int) :
    SameCause (p.remainder left right) (q.remainder left right) := by
  unfold remainder
  split
  · exact sameCause_stop p q _
  · exact .refl _

/-- A step depends on the program for the words of its failures only. -/
lemma sameCause_step (m : Machine) (s : Symbol) :
    SameCause (p.step resolver m s) (q.step resolver m s) := by
  have htruth := sameCause_popTruth p q resolver
  have htext := sameCause_popText p q resolver
  have hinteger := sameCause_popInteger p q resolver
  -- The operands are coerced in the same way; only where a step gives up does it name the program.
  cases s with
  | operand =>
    obtain ⟨stack, waiting⟩ := m
    cases waiting with
    | nil => exact sameCause_stop p q _
    | cons o waiting => exact .refl _
  | equals =>
    exact (htext _).bind fun (pattern, _) => (htext _).bind fun (subject, _) =>
      (sameCause_compare p q subject pattern).bind fun _ => .refl _
  | less => exact (hinteger _).bind fun (_, _) => (hinteger _).bind fun (_, _) => .refl _
  | more => exact (hinteger _).bind fun (_, _) => (hinteger _).bind fun (_, _) => .refl _
  | modulus =>
    exact (hinteger _).bind fun (right, _) => (hinteger _).bind fun (left, _) =>
      (sameCause_remainder p q left right).bind fun _ => .refl _
  | divide =>
    exact (hinteger _).bind fun (right, _) => (hinteger _).bind fun (left, _) =>
      (sameCause_quotient p q left right).bind fun _ => .refl _
  | either => exact (htruth _).bind fun (_, _) => (htruth _).bind fun (_, _) => .refl _
  | both => exact (htruth _).bind fun (_, _) => (htruth _).bind fun (_, _) => .refl _
  | negate => exact (htruth _).bind fun (_, _) => .refl _
  | _ => exact .refl _

lemma sameCause_steps (code : List Symbol) (m : Machine) :
    SameCause (p.steps resolver code m) (q.steps resolver code m) := by
  induction code generalizing m with
  | nil => exact .refl _
  | cons s code ih => exact (sameCause_step p q resolver m s).bind ih

lemma sameCause_finish (m : Machine) :
    SameCause (p.finish resolver m) (q.finish resolver m) := by
  refine (sameCause_popTruth p q resolver m.stack).bind fun (b, stack) => ?_
  by_cases h : 1 < stack.length
  · simpa only [if_pos h] using sameCause_stop p q _
  · simpa only [if_neg h] using .refl (pure b)

/-- Opening parentheses among the instructions have no effect. -/
lemma steps_filter (code : List Symbol) (m : Machine) :
    p.steps resolver (code.filter (· != .leftParen)) m = p.steps resolver code m := by
  induction code generalizing m with
  | nil => rfl
  | cons s code ih =>
    by_cases hs : s = .leftParen
    · subst hs
      rw [List.filter_cons_of_neg (by simp), ih, steps, step, pure_bind]
    · rw [List.filter_cons_of_pos (by simpa using hs), steps, steps]
      simp only [ih]

end Steps

/-- Programs with the same operands, whose codes are the same but for opening parentheses, evaluate
alike. -/
lemma sameCause_evaluate {p q : Program} (hoperands : p.operands = q.operands)
    (hcode : p.code.filter (· != .leftParen) = q.code.filter (· != .leftParen))
    (resolver : Resolver) : SameCause (p.evaluate resolver) (q.evaluate resolver) := by
  have hstart : Machine.start p = Machine.start q := by rw [Machine.start, Machine.start, hoperands]
  rw [evaluate, evaluate, hstart, ← steps_filter p, ← steps_filter q, hcode]
  exact (sameCause_steps p q resolver _ _).bind fun m => sameCause_finish p q resolver m

end Program

/-- **A condition with parentheses that match nothing means what it means with the missing ones put
at its ends.**  In the completed row every parenthesis has a match; it is arranged like the row
itself, from whose arrangement only the opening parentheses have to be taken out; and with the same
operands the two evaluate alike, whatever the operands and the resolver are: with the same requests,
to the same truth value or to a failure of the same cause, worded with the condition it is about. -/
theorem arrange_completed (row : List Symbol) :
    (unopened 0 (completed row) = 0 ∧ unclosed 0 (completed row) = 0) ∧
      (arrange [] row).filter (· != .leftParen) = arrange [] (completed row) ∧
      ∀ (source source' : Text) (operands : List Operand) (resolver : Resolver),
        SameCause (Program.evaluate { source, code := arrange [] row, operands } resolver)
          (Program.evaluate { source := source', code := arrange [] (completed row), operands }
            resolver) := by
  refine ⟨matched_completed row, (arrange_completed_eq row).symm, ?_⟩
  intro source source' operands resolver
  apply Program.sameCause_evaluate
  · rfl
  · rw [arrange_completed_eq, List.filter_filter]
    simp only [Bool.and_self]

/-- The row of `a)&((!b` is completed to that of `(a)&((!b))`. -/
example : completed [.operand, .rightParen, .both, .leftParen, .leftParen, .negate, .operand] =
    [.leftParen, .operand, .rightParen, .both, .leftParen, .leftParen, .negate, .operand,
     .rightParen, .rightParen] := by decide

end Stencil.Condition
