import Mathlib.Tactic.Lemma
import Stencil.Pair.Read

/-!
# Readings step by step

Lists and pairs are read by readings that are put together from a few others.  `Stepwise` is a
property of readings that is kept by putting them together and that these few have; `readList` and
`readPair` conclude that lists and pairs have it too.  So the forms of a pair are gone through here
and nowhere else, and a property has only its own steps to show.

Some steps push back what has been read in the step before.  So the property is one of a reading
with two texts, the one that it has been handed and the one that it hands on.
-/

namespace Stencil.Input

/-- A property of readings that is kept step by step.  `Holds s x t` says it of a reading `x` that
has been handed the text `s` and hands on `t a` with a value `a`. -/
structure Stepwise where
  Holds : {α : Type} → Text → Reading α → (α → Text) → Prop
  pure : ∀ {α : Type} {s : Text} (a : α), Holds s (Pure.pure a) fun _ => []
  throw : ∀ {α : Type} {s : Text} {t : α → Text} {fault : InputFault}, fault ≠ .closed →
    Holds s (MonadExcept.throw fault) t
  bind : ∀ {α β : Type} {s : Text} {x : Reading α} {t : α → Text} {f : α → Reading β}
    {u : β → Text}, Holds s x t → (∀ a, Holds (t a) (f a) u) → Holds s (x >>= f) u
  /-- What has been handed may be forgotten. -/
  forget : ∀ {α : Type} {s : Text} {x : Reading α} {t : α → Text}, Holds [] x t → Holds s x t
  targets : ∀ {α : Type} {s : Text} {f : List Text → Reading α} {t : α → Text},
    (∀ targets, Holds s (f targets) t) → Holds s (do f (← get).targets) t
  /-- The sign that is put in where there is no name is what is read next. -/
  sign : ∀ {α : Type} {f : Option Char → Reading α} {t : α → Text},
    (∀ c, Holds c.toList (f c) t) → Holds [] (f (some '=')) t →
      Holds [] (giveBack (some '=') >>= fun _ => nextPart >>= f) t
  nextPart : Holds [] nextPart Option.toList
  giveBack : ∀ c, Holds c.toList (giveBack c) fun _ => []
  readToken : ∀ extra, Holds [] (readToken extra) fun _ => []
  readClosed : ∀ name closing, Holds [] (readClosed name closing) fun _ => []
  readItems : ∀ closing c, Holds [] (readItems closing c) fun _ => []
  readUnquoted : ∀ start, Holds [] (readUnquoted start) fun _ => []

namespace Stepwise

variable (P : Stepwise) {α β : Type} {s : Text} {t : α → Text}

lemma ite {p : Prop} [Decidable p] {x y : Reading α} (hx : P.Holds s x t) (hy : P.Holds s y t) :
    P.Holds s (if p then x else y) t := by
  split
  · exact hx
  · exact hy

/-- A check of what has been read. -/
lemma check {p : Prop} [Decidable p] {fault : InputFault} {f : β → Reading α} {x : Reading α}
    (hfault : fault ≠ .closed) (hx : P.Holds s x t) :
    P.Holds s (if p then MonadExcept.throw fault >>= f else x) t :=
  P.ite (P.throw hfault) hx

lemma readList (closing : Text) : P.Holds [] (readList closing) fun _ => [] :=
  P.bind P.nextPart fun c => P.forget (P.readItems closing c)

lemma readMapping (name : Text) : P.Holds [] (readMapping name) fun _ => [] := by
  simp only [Input.readMapping]
  refine P.bind P.nextPart fun dollar => P.forget (P.check (by simp) ?_)
  refine P.bind (P.readToken _) fun target => ?_
  refine P.targets (f := fun targets => if !targets.contains target then
    MonadExcept.throw (InputFault.badTarget name target) >>= _ else _) fun targets => ?_
  refine P.check (by simp) (P.bind P.nextPart fun brace => P.forget (P.check (by simp) ?_))
  exact P.bind (P.readClosed _ _) fun key => P.pure _

lemma readPairValue (name : Text) (requireQuotes : Bool) (c : Option Char) :
    P.Holds c.toList (readPairValue name requireQuotes c) fun _ => [] := by
  unfold Input.readPairValue
  split
  · exact P.ite (P.forget (P.readMapping name)) (P.bind (P.giveBack _) fun _ => P.pure _)
  · exact P.forget (P.bind (P.readList _) fun _ => P.pure _)
  · exact P.forget (P.bind (P.readList _) fun _ => P.pure _)
  · split
    · refine P.ite (P.forget (P.bind (P.readClosed _ _) fun _ => P.pure _))
        (P.ite (P.throw (by simp)) ?_)
      refine P.bind (P.giveBack _) fun _ => ?_
      exact P.bind (P.readUnquoted _) fun _ => P.pure _
    · exact P.ite (P.throw (by simp)) (P.bind (P.readUnquoted _) fun _ => P.pure _)

lemma readPair (default? : Option Text) (requireQuotes : Bool) (extra : Text) :
    P.Holds [] (readPair default? requireQuotes extra) fun _ => [] := by
  have hvalue : ∀ name, P.Holds [] (do
      let c ← Input.nextPart
      Input.readPairValue name requireQuotes c) fun _ => [] := fun name =>
    P.bind P.nextPart fun c => P.readPairValue name _ c
  have hrest : ∀ name sign, P.Holds sign.toList (if sign = some '=' ∨ sign = some ':' then do
        let c ← Input.nextPart
        Input.readPairValue name requireQuotes c
      else if !requireQuotes ∧ default? ≠ some name then do
        Input.giveBack sign
        return { name := default?.getD [], value := .str (← Input.readUnquoted name) }
      else MonadExcept.throw (.missingEquals name)) fun _ => [] := by
    intro name sign
    refine P.ite (P.forget (hvalue name)) (P.ite ?_ (P.throw (by simp)))
    refine P.bind (P.giveBack sign) fun _ => ?_
    exact P.bind (P.readUnquoted _) fun _ => P.pure _
  have hnamed : ∀ name, P.Holds [] (Input.nextPart >>= _) fun _ => [] := fun name =>
    P.bind P.nextPart (hrest name)
  refine P.bind (P.readToken extra) fun word => ?_
  cases default? with
  | none => exact hnamed word
  | some name =>
    refine P.ite (P.sign (hrest name) ?_) (hnamed word)
    rw [if_pos (.inl rfl)]
    exact hvalue name

end Stepwise

end Stencil.Input
