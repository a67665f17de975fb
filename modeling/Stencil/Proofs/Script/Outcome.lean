import Mathlib.Tactic.Lemma
import Stencil.Script

/-!
# Outcomes of scripts

A script says nothing about how its requests are answered.  What it may come to is therefore a
relation: `Script.MayEnd x r` says that the script `x` ends in the result `r` if its requests get
certain answers.  The lemmas about `>>=` take the outcomes of a script apart along its steps, and
`mayEnd_of_run` ties the relation to runs: whatever the handler is, a run ends in a result that the
script may end in.  So what holds of all outcomes of a script holds of all of its runs.

`Script.mapFailure` puts the failures of a script in other words.  Two scripts that are equal after
it make the same requests, and differ at most in how they say why they fail.
-/

namespace Stencil.Script

variable {α β : Type}

/-- The results that a script may end in. -/
inductive MayEnd : Script α → Except Failure α → Prop where
  | done (r : Except Failure α) : MayEnd (.done r) r
  | ask (q : Request) {next : Except Failure Value → Script α} (answer : Except Failure Value)
      {r : Except Failure α} : MayEnd (next answer) r → MayEnd (.ask q next) r

/-! ## Steps of scripts -/

@[simp] lemma mayEnd_done {r r' : Except Failure α} : MayEnd (.done r) r' ↔ r' = r := by
  constructor
  · rintro ⟨⟩
    rfl
  · rintro rfl
    exact .done r'

@[simp] lemma mayEnd_ask {q : Request} {next : Except Failure Value → Script α}
    {r : Except Failure α} : MayEnd (.ask q next) r ↔ ∃ answer, MayEnd (next answer) r := by
  constructor
  · rintro (_ | ⟨_, answer, h⟩)
    exact ⟨answer, h⟩
  · rintro ⟨answer, h⟩
    exact .ask q answer h

@[simp] lemma mayEnd_pure {a : α} {r : Except Failure α} :
    MayEnd (pure a) r ↔ r = .ok a := mayEnd_done

@[simp] lemma mayEnd_throw {e : Failure} {r : Except Failure α} :
    MayEnd (throw e) r ↔ r = .error e := mayEnd_done

/-- A script that goes on comes to something by coming to something first. -/
lemma mayEnd_bind_ok {x : Script α} {f : α → Script β} {b : β} :
    MayEnd (x >>= f) (.ok b) ↔ ∃ a, MayEnd x (.ok a) ∧ MayEnd (f a) (.ok b) := by
  induction x with
  | done r =>
    cases r with
    | ok a => simp [bind_eq, bind]
    | error e => simp [bind_eq, bind]
  | ask q next ih =>
    simp only [bind_eq, bind, mayEnd_ask] at ih ⊢
    simp only [ih]
    constructor
    · rintro ⟨answer, a, ha, hb⟩
      exact ⟨a, ⟨answer, ha⟩, hb⟩
    · rintro ⟨a, ⟨answer, ha⟩, hb⟩
      exact ⟨answer, a, ha, hb⟩

/-! ## Failures in other words -/

/-- A script with its failures put in other words.  Answers come to it as they are. -/
def mapFailure (f : Failure → Failure) : Script α → Script α
  | .done (.ok a) => .done (.ok a)
  | .done (.error e) => .done (.error (f e))
  | .ask q next => .ask q fun answer => (next answer).mapFailure f

lemma mapFailure_bind (f : Failure → Failure) (x : Script α) (g : α → Script β) :
    (x >>= g).mapFailure f = x.mapFailure f >>= fun a => (g a).mapFailure f := by
  induction x with
  | done r => cases r <;> rfl
  | ask q next ih =>
    simp only [bind_eq, bind, mapFailure] at ih ⊢
    simp only [ih]

/-! ## Runs -/

/-- **A run of a script ends in a result that the script may end in**, in whatever state it starts
and however its requests are answered. -/
theorem mayEnd_of_run {σ : Type} (handler : Request → EStateM Failure σ Value) (x : Script α)
    (state : σ) :
    (∀ a state', (x.run handler).run state = .ok a state' → MayEnd x (.ok a)) ∧
      ∀ e state', (x.run handler).run state = .error e state' → MayEnd x (.error e) := by
  induction x generalizing state with
  | done r =>
    cases r with
    | ok b =>
      constructor
      · rintro a state' ⟨⟩
        exact .done _
      · rintro e state' ⟨⟩
    | error f =>
      constructor
      · rintro a state' ⟨⟩
      · rintro e state' ⟨⟩
        exact .done _
  | ask q next ih =>
    simp only [mayEnd_ask, EStateM.run, run]
    cases handler q state with
    | ok v state₁ =>
      exact ⟨fun a state' h => ⟨.ok v, (ih _ state₁).1 a state' h⟩,
        fun e state' h => ⟨.ok v, (ih _ state₁).2 e state' h⟩⟩
    | error f state₁ =>
      exact ⟨fun a state' h => ⟨.error f, (ih _ state₁).1 a state' h⟩,
        fun e state' h => ⟨.error f, (ih _ state₁).2 e state' h⟩⟩

end Stencil.Script
