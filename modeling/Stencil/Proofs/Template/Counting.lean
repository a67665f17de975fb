import Stencil.Proofs.Template.Agreement

/-!
# The count of nested conditions

A context counts the conditions that are under evaluation on behalf of templates, and the limit on
nesting is checked against this count.  Sources and functions run in between; they may fail, catch
failures, and call back into the resolution at any depth.  This file shows that the count is right
all the same: every operation leaves it as it was, whether it comes to a value or to a failure, and
at every request that is made in the meantime it is what it was at the start and one more for each
condition around the request.

An operation shows its context at the start and at the end only.  What goes on in between is
therefore said by putting a supervisor next to the answers (`answerCounted`), who knows from the
nesting of the calls what the count has to be.  Where a request is made with another count, or with
one beyond the bound, the supervisor answers in place of the library; and a condition evaluated for
a template is left to the supervisor if the count was not raised for it.  The main statement,
`run_operation_counted`, is that no supervisor makes a difference, one who leaves notes included: so
none is ever called.

The proof compares the two runs on the terms `counting d l`: started with the count `d` and the
limit `l`, they do the same and keep both.  Everything that is built from answers that agree agrees,
and so the induction over the levels of calls only has to see what raising the count does.
-/

namespace Stencil.Template

open Stencil.Condition

/-! ## The terms of counting -/

/-- The context that a run ends in. -/
def endContext {α : Type} : EStateM.Result Failure Context α → Context
  | .ok _ c => c
  | .error _ c => c

/-- A context with the count `d` and the limit `l`. -/
def Context.At (d : Nat) (l : Int) (c : Context) : Prop := c.evalDepth = d ∧ c.mergeLimit = l

/-- Contexts have the count `d` and the limit `l`; sources and functions may do as they like. -/
def counting (d : Nat) (l : Int) : Terms where
  kept := Context.At d l
  fails _ := True
  sourceAsks _ := True
  conditionAsks _ := True
  enter _ hc := hc
  assign _ _ _ hc := hc
  resolution _ := trivial
  source _ _ _ := .of_all (fun _ => trivial) (fun _ => trivial) _
  condition _ _ := .of_all (fun _ => trivial) (fun _ => trivial) _

lemma at_endContext {α : Type} {d : Nat} {l : Int} {r : EStateM.Result Failure Context α}
    (h : (counting d l).Admits r) : (endContext r).At d l := by
  cases r with
  | ok a c => exact h
  | error e c => exact h.2

/-! ## Supervised answers -/

/-- Answers with a supervisor next to them, who answers in their place where the count is not
`depth`, or is greater than `most`. -/
def supervised (other : Request → Resolution Value) (most depth : Nat)
    (answers : Request → Resolution Value) : Request → Resolution Value := fun q c =>
  if c.evalDepth = depth ∧ c.evalDepth ≤ most then answers q c else other q c

/-- The answers to requests with a number of levels of calls left, under supervision: `depth` is the
number of conditions around the requests.  A condition evaluated for a template is supervised once
more, after the count has been raised for it. -/
def answerCounted (other : Request → Resolution Value) (most : Nat) :
    Nat → Nat → Request → Resolution Value
  | depth, 0 => supervised other most depth (answerWith fun _ => throw .callDepth)
  | depth, level + 1 => supervised other most depth (answerWith fun
    | .checkNested condition =>
      supervised other most (depth + 1) (callBy (answerCounted other most (depth + 1) level))
        (.checkNested condition)
    | q => callBy (answerCounted other most depth level) q)

/-- The greatest count that a limit allows for an operation, which may have started above it. -/
def greatestCount (d : Nat) (l : Int) : Nat := max d l.toNat

section Supervised

variable (other : Request → Resolution Value) {most d : Nat} {l : Int}

/-- A supervisor with the right count in mind is never called. -/
lemma agreeOn_supervised (hd : d ≤ most) {x : Resolution Value}
    {answers : Request → Resolution Value} {q : Request}
    (h : AgreeOn (counting d l) x (answers q)) :
    AgreeOn (counting d l) x (supervised other most d answers q) := by
  intro c hc
  have hcount : c.evalDepth = d ∧ c.evalDepth ≤ most := ⟨hc.1, hc.1 ▸ hd⟩
  have hsame : supervised other most d answers q c = answers q c := if_pos hcount
  simpa only [EStateM.run, hsame] using h c hc

/-- Raising the count for a condition and lowering it again keeps it, if the condition's evaluation
keeps the count one higher. -/
lemma agreeOn_nested_counting (condition : Text) {x y : Resolution Value}
    (hx : (d : Int) < l → AgreeOn (counting (d + 1) l) x y) :
    AgreeOn (counting d l) (nested condition x) (nested condition y) := by
  refine AgreeOn.nested (U := counting (d + 1) l) condition
    (fun c hc => ⟨congrArg (· + 1) hc.1, hc.2⟩) (fun c hc => ⟨congrArg (· - 1) hc.1, hc.2⟩)
    (fun _ h => h) fun c hc hlimit => hx ?_
  rwa [hc.1, hc.2] at hlimit

/-- **The supervisor of requests is never called**, at any level of calls. -/
lemma agreeOn_answerCounted (hl : l.toNat ≤ most) (level : Nat) (hd : d ≤ most) (q : Request) :
    AgreeOn (counting d l) (answer level q) (answerCounted other most d level q) := by
  induction level generalizing d q with
  | zero =>
    exact agreeOn_supervised other hd (.answerWith (fun _ => .throw trivial)
      fun _ _ => agreeOn_nested_counting _ fun _ => .throw trivial)
  | succ level ih =>
    refine agreeOn_supervised other hd (.answerWith (fun hq => ?_) ?_)
    · have hcall := AgreeOn.callBy (fun q _ => ih hd q) (fun q _ => ih hd q) hq
      cases q <;> first | exact hcall | exact hq.elim
    · rintro condition rfl
      refine agreeOn_nested_counting condition fun hlt => ?_
      -- The limit allows one condition more, so the count stays below the bound when it is raised.
      have hd' : d + 1 ≤ most := by omega
      have hcheck := (AgreeOn.checkBy (fun q _ => ih hd' q) (some condition)).map Value.bool
      exact agreeOn_supervised other hd' hcheck

end Supervised

/-! ## Operations -/

/-- A call of one of the public operations. -/
inductive Operation where
  | resolveValue (v : Value)
  | resolveVariables (d : Delimiters) (t : Text)
  | replaceParams (t : Option Text)
  | checkCondition (condition : Option Text)

namespace Operation

/-- What an operation does. -/
def run : Operation → Resolution Value
  | .resolveValue v => Template.resolveValue v
  | .resolveVariables d t => Template.resolveVariables d t
  | .replaceParams t => replaceParamsOf t
  | .checkCondition condition => Value.bool <$> Template.checkCondition condition

/-- What an operation does if requests are answered by `handler`. -/
def runBy (handler : Request → Resolution Value) : Operation → Resolution Value
  | .resolveValue v => resolveValueBy handler v
  | .resolveVariables d t => resolveVariablesBy handler d t
  | .replaceParams none => pure .none
  | .replaceParams (some t) => replaceParamsBy handler t
  | .checkCondition condition => Value.bool <$> checkBy handler condition

/-- The operations answer requests as their context has it. -/
lemma run_eq_runBy (op : Operation) (c : Context) :
    op.run.run c = (op.runBy (handlerOf c)).run c := by
  have hget : ∀ (f : Context → Resolution Value), (get >>= f).run c = (f c).run c := fun _ => rfl
  cases op with
  | resolveValue v => rw [run, runBy, Template.resolveValue, hget]
  | resolveVariables d t => rw [run, runBy, Template.resolveVariables, hget]
  | replaceParams t? =>
    cases t? with
    | none => rfl
    | some t => rw [run, runBy, replaceParamsOf, Template.replaceParams, hget]
  | checkCondition condition => rw [run, runBy, Template.checkCondition, map_bind, hget]

/-- The context after some operations, whether they came to values or to failures. -/
def after : List Operation → Context → Context
  | [], c => c
  | op :: ops, c => after ops (endContext (op.run.run c))

variable {d : Nat} {l : Int}

/-- Operations agree if the answers do to what is asked for. -/
lemma agreeOn_runBy {T : Terms} {h h' : Request → Resolution Value}
    (hsource : ∀ q, T.sourceAsks q → AgreeOn T (h q) (h' q))
    (hcondition : ∀ q, T.conditionAsks q → AgreeOn T (h q) (h' q)) (op : Operation) :
    AgreeOn T (op.runBy h) (op.runBy h') := by
  cases op with
  | resolveValue v => exact .resolveValueBy hsource v
  | resolveVariables m t => exact .resolveVariablesBy hsource m t
  | replaceParams t? =>
    cases t? with
    | none => exact .pure _
    | some t => exact .replaceParamsBy hsource t
  | checkCondition condition => exact (AgreeOn.checkBy hcondition condition).map _

/-- One operation: the supervisor makes no difference, and the count and the limit stay. -/
lemma run_counted (op : Operation) {c : Context} (hc : c.At d l)
    (other : Request → Resolution Value) :
    (op.runBy (answerCounted other (greatestCount d l) d c.callBudget)).run c = op.run.run c ∧
      (endContext (op.run.run c)).At d l := by
  have hanswers := agreeOn_answerCounted other (d := d) (l := l) (Nat.le_max_right _ _) c.callBudget
    (Nat.le_max_left _ _)
  obtain ⟨hrun, hend⟩ :=
    agreeOn_runBy (fun q _ => hanswers q) (fun q _ => hanswers q) op c hc
  rw [run_eq_runBy]
  exact ⟨hrun.symm, at_endContext hend⟩

/-- Any number of operations leave the count and the limit as they are. -/
lemma after_at (ops : List Operation) {c : Context} (hc : c.At d l) : (after ops c).At d l := by
  induction ops generalizing c with
  | nil => exact hc
  | cons op ops ih => exact ih (op.run_counted hc fun _ => throw .callDepth).2

end Operation

open Operation in
/-- **The count of nested conditions is right at all times.**  Whatever the sources and functions
are, and whatever operations have come before, an operation leaves the count as it was before it,
whether it comes to a value or to a failure.  While it runs, the count at each request is the count
at its start and one more for each condition around the request that is evaluated for a template,
and is never greater than the limit or the count at the start, whichever is the greater: a
supervisor of all this makes no difference to the run, since there is nothing to do for him.  In
particular a condition evaluated for a template, and every request made on its behalf, meets a count
that has been raised at least once. -/
theorem run_operation_counted (c₀ : Context) (earlier : List Operation) (op : Operation) :
    let c := after earlier c₀
    c.evalDepth = c₀.evalDepth ∧ c.mergeLimit = c₀.mergeLimit ∧
      (endContext (op.run.run c)).evalDepth = c.evalDepth ∧
      ∀ other : Request → Resolution Value,
        (op.runBy (answerCounted other (greatestCount c.evalDepth c.mergeLimit) c.evalDepth
          c.callBudget)).run c = op.run.run c := by
  intro c
  have hc : c.At c₀.evalDepth c₀.mergeLimit := after_at earlier ⟨rfl, rfl⟩
  have hsame : c.At c.evalDepth c.mergeLimit := ⟨rfl, rfl⟩
  have hcounted := op.run_counted hsame
  exact ⟨hc.1, hc.2, (hcounted fun _ => throw .callDepth).2.1, fun other => (hcounted other).1⟩

end Stencil.Template
