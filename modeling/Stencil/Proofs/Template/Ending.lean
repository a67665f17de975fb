import Stencil.Proofs.Condition.Asking
import Stencil.Proofs.Template.Counting

/-!
# Resolution ends

Templates can refer to themselves: a parameter whose value refers to the parameter, a condition
whose operands evaluate the condition, and any mixture of the two through lists, messages and the
functions that resolve their arguments.  This file shows that with the built-in sources and
functions every operation comes to an end all the same, with a value or with a failure of its own.

The rounds of one resolution are bounded by the limit on merges, which is the library's own, and a
pass over a text ends with the text.  What is left is the levels of calls, by which requests are
answered: they are there for the definition, and running out of them (`Failure.callDepth`) is
nothing that the library knows of.  So the end of a resolution is that it never gets to its last
level, and that what is beyond the last level (`deepest` in `answerOver`) has no influence on it.

The measure is what the limit leaves of the count of nested conditions.  A call back out of a
source is a condition under a raised count, so it has one less; a condition calls back for the
values of texts at the same count, but these are resolved by sources and not by conditions.  So two
levels are enough for each condition that can be nested, and one more for a condition at the start
(`agreeOn_outright`).
-/

namespace Stencil.Template

open Stencil.Condition

/-! ## What the built-in sources ask for -/

/-- Requests that are answered without a call, but for nested conditions. -/
def AsksOutright (q : Request) : Prop := ¬ q.IsCall

/-- A source's script that calls back for nested conditions only. -/
abbrev Outright (x : Script Value) : Prop := x.Behaves AsksOutright IsOwn fun _ => True

lemma outright_scope (scope : Scope) (key : Text) : Outright (scopeSource scope key) :=
  .request id

lemma outright_int (key : Text) : Outright (intSource key) := by
  unfold intSource
  split
  · exact .pure trivial
  · exact .throw (by simp [IsOwn])

lemma outright_report (record : Record) :
    (Script.perform (.report record)).Behaves AsksOutright IsOwn fun _ => True :=
  (Script.Behaves.request id).bind fun _ _ => .pure trivial

lemma outright_resource (key : Text) : Outright (resourceSource key) := by
  unfold resourceSource
  split
  · exact .throw (by simp [IsOwn])
  · refine (Script.Behaves.request id).bind fun bundle _ => ?_
    split
    · exact .pure trivial
    · dsimp only
      split
      · exact (outright_report _).bind fun _ _ => .pure trivial
      · split
        · exact .pure trivial
        · split
          · exact .pure trivial
          · exact .throw (by simp [IsOwn])
    · exact .throw (by simp [IsOwn])

/-- The built-in sources call back for nested conditions only. -/
lemma outright_of_builtin {keyword : Text} {source : Source}
    (h : builtinSources.find? keyword = some source) (key : Text) : Outright (source key) := by
  have hall : ∀ row ∈ builtinSources, ∀ key, Outright (row.2 key) := by
    simp only [builtinSources, List.map_cons, List.map_nil, List.forall_mem_cons]
    exact ⟨outright_scope _, outright_scope _, outright_scope _, outright_scope _,
      outright_scope _, outright_scope _, outright_scope _, fun _ => .pure trivial,
      fun _ => .request id, fun _ => .pure trivial, outright_int,
      outright_resource, fun _ => (Script.Behaves.request id).bind
        fun _ _ => .pure trivial, by simp⟩
  exact hall _ (Table.mem_of_find? h) key

/-! ## Levels of calls -/

/-- The answers to requests with a number of levels of calls left, where `deepest` answers the calls
beyond them. -/
def answerOver (deepest : Request → Resolution Value) : Nat → Request → Resolution Value
  | 0, request => answerWith deepest request
  | level + 1, request => answerWith (callBy (answerOver deepest level)) request

/-- The library has nothing beyond the levels. -/
lemma answer_eq_answerOver (level : Nat) :
    answer level = answerOver (fun _ => throw .callDepth) level := by
  induction level with
  | zero => rfl
  | succ level ih =>
    funext q
    rw [answer, answerOver, ih]

/-- The number of conditions that can still be nested. -/
def Context.nestable (c : Context) : Nat := (c.mergeLimit - c.evalDepth).toNat

/-- Contexts have the built-in sources and functions, the count `d` and the limit `l`; failures are
the library's own. -/
def endings (d : Nat) (l : Int) : Terms where
  kept c := c.At d l ∧ c.sources = builtinSources ∧ c.functions = builtinFunctions
  fails := IsOwn
  sourceAsks := AsksOutright
  conditionAsks := AsksValue
  enter _ hc := hc
  assign _ _ _ hc := hc
  resolution _ := by simp [IsOwn]
  source hc hs key := outright_of_builtin (hc.2.1 ▸ hs) key
  condition hc condition :=
    plain_evaluate (fun _ _ h => modest_of_builtin (hc.2.2 ▸ h)) condition

section Levels

variable {deepest deepest' : Request → Resolution Value} {n m d : Nat} {l : Int}

/-- A value is resolved by a level whose next level answers the sources. -/
lemma agreeOn_resolve
    (h : ∀ q, AsksOutright q →
      AgreeOn (endings d l) (answerOver deepest n q) (answerOver deepest' m q))
    (q : Request) (hq : AsksValue q) :
    AgreeOn (endings d l) (answerOver deepest (n + 1) q) (answerOver deepest' (m + 1) q) := by
  obtain ⟨v, rfl⟩ := hq
  exact .answerWith (fun _ => .resolveValueBy h v) (by simp)

/-- Requests agree if the nested conditions do that can be evaluated. -/
lemma agreeOn_answerWith {call call' : Request → Resolution Value} {q : Request}
    (hq : AsksOutright q)
    (h : (d : Int) < l → ∀ condition,
      AgreeOn (endings (d + 1) l) (call (.checkNested condition)) (call' (.checkNested condition))) :
    AgreeOn (endings d l) (answerWith call q) (answerWith call' q) := by
  refine .answerWith (fun hcall => absurd hcall hq) ?_
  rintro condition rfl
  refine AgreeOn.nested (U := endings (d + 1) l) condition
    (fun c hc => ⟨⟨congrArg (· + 1) hc.1.1, hc.1.2⟩, hc.2⟩)
    (fun c hc => ⟨⟨congrArg (· - 1) hc.1.1, hc.1.2⟩, hc.2⟩) (fun _ he => he)
    fun c hc hlimit => h ?_ condition
  rwa [hc.1.1, hc.1.2] at hlimit

/-- **Two levels for each condition that can be nested.**  With these the requests of sources are
answered in the same way whatever lies beyond. -/
lemma agreeOn_outright (hn : 2 * (l - d).toNat ≤ n) (hm : 2 * (l - d).toNat ≤ m) {q : Request}
    (hq : AsksOutright q) :
    AgreeOn (endings d l) (answerOver deepest n q) (answerOver deepest' m q) := by
  -- The induction is on the conditions that can be nested.
  induction hr : (l - d).toNat generalizing d n m q with
  | zero =>
    have hlimit : ¬ (d : Int) < l := by omega
    cases n <;> cases m <;> exact agreeOn_answerWith hq fun h => absurd h hlimit
  | succ r ih =>
    obtain ⟨n, rfl⟩ : ∃ k, n = k + 2 := ⟨n - 2, by omega⟩
    obtain ⟨m, rfl⟩ : ∃ k, m = k + 2 := ⟨m - 2, by omega⟩
    refine agreeOn_answerWith hq fun _ condition => ?_
    -- The condition resolves texts by the next level, whose sources are answered by the one below.
    have hbelow : ∀ q, AsksOutright q →
        AgreeOn (endings (d + 1) l) (answerOver deepest n q) (answerOver deepest' m q) :=
      fun q hq => ih (by omega) (by omega) hq (by omega)
    exact (AgreeOn.checkBy (agreeOn_resolve hbelow) (some condition)).map Value.bool

/-- Operations take two levels for each condition that can be nested, and one more. -/
lemma agreeOn_operation (hn : 2 * (l - d).toNat + 1 ≤ n) (hm : 2 * (l - d).toNat + 1 ≤ m)
    (op : Operation) :
    AgreeOn (endings d l) (op.runBy (answerOver deepest n)) (op.runBy (answerOver deepest' m)) := by
  obtain ⟨n, rfl⟩ : ∃ k, n = k + 1 := ⟨n - 1, by omega⟩
  obtain ⟨m, rfl⟩ : ∃ k, m = k + 1 := ⟨m - 1, by omega⟩
  exact op.agreeOn_runBy (fun q hq => agreeOn_outright (by omega) (by omega) hq)
    (agreeOn_resolve fun q hq => agreeOn_outright (by omega) (by omega) hq)

end Levels

/-! ## Operations -/

/-- **Resolution ends.**  In every context with the built-in sources and functions, whatever its
scopes, its parameters and its limit, every operation comes to a value or to a failure that is the
library's own.  Two levels of calls for each condition that can still be nested, and one more, are
enough for it: with any greater number of levels it does the same, and it does not matter what would
be done beyond the last. -/
theorem run_operation_ends (c : Context) (hsources : c.sources = builtinSources)
    (hfunctions : c.functions = builtinFunctions) (op : Operation) :
    ((∃ v c', op.run.run c = .ok v c') ∨
      ∃ e c', e ≠ .callDepth ∧ op.run.run c = .error e c') ∧
    ∀ (deepest : Request → Resolution Value) (levels : Nat), 2 * c.nestable + 1 ≤ levels →
      (op.runBy (answerOver deepest levels)).run c = op.run.run c := by
  have hc : (endings c.evalDepth c.mergeLimit).kept c := ⟨⟨rfl, rfl⟩, hsources, hfunctions⟩
  -- The levels that the context allows are enough by far, so that both sides of the comparison
  -- apply.
  have hbudget : 2 * c.nestable + 1 ≤ c.callBudget := by
    unfold Context.nestable Context.callBudget callLimit
    omega
  have hagree : ∀ (deepest : Request → Resolution Value) (levels : Nat),
      2 * c.nestable + 1 ≤ levels →
        AgreeOn (endings c.evalDepth c.mergeLimit) (op.runBy (answerOver deepest levels))
          (op.runBy (handlerOf c)) := by
    intro deepest levels hlevels
    rw [handlerOf, answer_eq_answerOver]
    exact agreeOn_operation hlevels hbudget op
  refine ⟨?_, fun deepest levels hlevels => ?_⟩
  · have hend := (hagree (fun _ => throw .callDepth) _ hbudget c hc).2
    rw [(hagree _ _ hbudget c hc).1, ← op.run_eq_runBy] at hend
    cases hrun : op.run.run c with
    | ok v c' => exact .inl ⟨v, c', rfl⟩
    | error e c' =>
      rw [hrun] at hend
      exact .inr ⟨e, c', hend.1, rfl⟩
  · rw [op.run_eq_runBy]
    exact (hagree deepest levels hlevels c hc).1

/-! ## A parameter that evaluates itself -/

/-- The parameter `p` is a condition whose operand is the parameter `p`. -/
def selfEvaluating : Context where
  scopes := { templateParams := [(.str ['p'], .str "$eval{#{p}}".toList)] }

/-- Resolving a text that refers to the parameter ends, and sixty-five levels are enough for it. -/
theorem run_operation_ends_selfEvaluating :
    ((∃ v c', (Operation.resolveValue (.str "#{p}".toList)).run.run selfEvaluating = .ok v c') ∨
      ∃ e c', e ≠ .callDepth ∧
        (Operation.resolveValue (.str "#{p}".toList)).run.run selfEvaluating = .error e c') ∧
    ∀ (deepest : Request → Resolution Value) (levels : Nat), 65 ≤ levels →
      ((Operation.resolveValue (.str "#{p}".toList)).runBy (answerOver deepest levels)).run
          selfEvaluating =
        (Operation.resolveValue (.str "#{p}".toList)).run.run selfEvaluating :=
  run_operation_ends selfEvaluating rfl rfl (.resolveValue (.str "#{p}".toList))

end Stencil.Template
