import Mathlib.Tactic.Lemma
import Stencil.Script

/-!
# What scripts ask for

The requests that a script makes may depend on the answers it has got.  `Script.Behaves` is what can
be said of them all in advance: the script asks for nothing but what `asks` allows, it comes to
values with the property `yields`, and to failures of the kind `fails` as long as no answer is a
failure of another kind.  The lemmas take this through the steps of scripts.

A `Conduct` is any property of scripts that passes from the steps to the whole in the same way, so
that what takes it along a program does not depend on which one it is.
-/

namespace Stencil.Script

variable {α β : Type}

/-- A script that asks for what it may, whatever the answers are, and comes to what it should. -/
inductive Behaves (asks : Request → Prop) (fails : Failure → Prop) (yields : α → Prop) :
    Script α → Prop where
  | value {a : α} (h : yields a) : Behaves asks fails yields (.done (.ok a))
  | failure {e : Failure} (h : fails e) : Behaves asks fails yields (.done (.error e))
  | ask {q : Request} {next : Except Failure Value → Script α} (hq : asks q)
      (hvalue : ∀ v, Behaves asks fails yields (next (.ok v)))
      (hfailure : ∀ e, fails e → Behaves asks fails yields (next (.error e))) :
      Behaves asks fails yields (.ask q next)

namespace Behaves

variable {asks : Request → Prop} {fails : Failure → Prop} {yields : α → Prop} {goes : β → Prop}

protected lemma pure {a : α} (h : yields a) : Behaves asks fails yields (pure a) := value h

protected lemma throw {e : Failure} (h : fails e) :
    Behaves asks fails yields (throw e : Script α) := failure h

lemma request {q : Request} (hq : asks q) : Behaves asks fails (fun _ => True) (request q) :=
  ask hq (fun _ => value trivial) fun _ h => failure h

protected lemma bind {x : Script α} {f : α → Script β} (hx : Behaves asks fails yields x)
    (hf : ∀ a, yields a → Behaves asks fails goes (f a)) : Behaves asks fails goes (x >>= f) := by
  induction hx with
  | value h => exact hf _ h
  | failure h => exact failure h
  | ask hq _ _ ihv ihf => exact ask hq ihv ihf

protected lemma map {x : Script α} {f : α → β} (hx : Behaves asks fails yields x)
    (hf : ∀ a, yields a → goes (f a)) : Behaves asks fails goes (f <$> x) := by
  rw [map_eq_pure_bind]
  exact hx.bind fun a ha => .pure (hf a ha)

lemma mono {weaker : α → Prop} {x : Script α} (hx : Behaves asks fails yields x)
    (h : ∀ a, yields a → weaker a) : Behaves asks fails weaker x := by
  induction hx with
  | value ha => exact value (h _ ha)
  | failure he => exact failure he
  | ask hq _ _ ihv ihf => exact ask hq ihv ihf

/-- A script that may ask for anything and fail in any way behaves. -/
lemma of_all (hasks : ∀ q, asks q) (hfails : ∀ e, fails e) (x : Script α) :
    Behaves asks fails (fun _ => True) x := by
  induction x with
  | done r =>
    cases r with
    | ok a => exact value trivial
    | error e => exact failure (hfails e)
  | ask q next ih => exact ask (hasks q) (fun v => ih _) fun e _ => ih _

end Behaves

/-! ## Conducts -/

/-- A property of scripts, for each property of the values that they come to, which a script has if
its steps have it.  A script may always fail, except for the depth of calls. -/
structure Conduct where
  holds : {α : Type} → (α → Prop) → Script α → Prop
  pure : ∀ {α : Type} {yields : α → Prop} {a : α}, yields a → holds yields (Pure.pure a)
  throw : ∀ {α : Type} {yields : α → Prop} {e : Failure}, e ≠ .callDepth →
    holds yields (MonadExcept.throw e : Script α)
  bind : ∀ {α β : Type} {yields : α → Prop} {goes : β → Prop} {x : Script α} {f : α → Script β},
    holds yields x → (∀ a, yields a → holds goes (f a)) → holds goes (x >>= f)

lemma Conduct.map (K : Conduct) {yields : α → Prop} {goes : β → Prop} {x : Script α} {f : α → β}
    (hx : K.holds yields x) (hf : ∀ a, yields a → goes (f a)) : K.holds goes (f <$> x) := by
  rw [map_eq_pure_bind]
  exact K.bind hx fun a ha => K.pure (hf a ha)

end Stencil.Script
