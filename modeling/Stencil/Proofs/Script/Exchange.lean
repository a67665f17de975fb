import Stencil.Proofs.Script.Outcome

/-!
# Exchanges of scripts

`Script.MayEnd` says what a script may come to, and forgets how.  `Script.EndsAfter x exchanges r`
keeps the way: the script makes the requests of a list, one after the other, gets the answers that
stand beside them, and ends in the result.  A result may be come to exactly if there is such a list
(`mayEnd_iff_endsAfter`).

The list of a script that goes on is cut at the place where its first part ends
(`endsAfter_bind_ok`, `endsAfter_bind_error`), so statements about who asked for what, and who
failed, can follow the steps of a script.
-/

namespace Stencil.Script

variable {α β : Type}

/-- A request with the answer that it got. -/
abbrev Exchange := Request × Except Failure Value

/-- What a script asks for and is answered on the way to a result. -/
inductive EndsAfter : Script α → List Exchange → Except Failure α → Prop where
  | done (r : Except Failure α) : EndsAfter (.done r) [] r
  | ask (q : Request) {next : Except Failure Value → Script α} (answer : Except Failure Value)
      {exchanges : List Exchange} {r : Except Failure α} :
      EndsAfter (next answer) exchanges r → EndsAfter (.ask q next) ((q, answer) :: exchanges) r

@[simp] lemma endsAfter_done {r r' : Except Failure α} {exchanges : List Exchange} :
    EndsAfter (.done r) exchanges r' ↔ exchanges = [] ∧ r' = r := by
  constructor
  · rintro ⟨⟩
    exact ⟨rfl, rfl⟩
  · rintro ⟨rfl, rfl⟩
    exact .done r'

@[simp] lemma endsAfter_ask {q : Request} {next : Except Failure Value → Script α}
    {exchanges : List Exchange} {r : Except Failure α} :
    EndsAfter (.ask q next) exchanges r ↔
      ∃ answer rest, exchanges = (q, answer) :: rest ∧ EndsAfter (next answer) rest r := by
  constructor
  · rintro (_ | ⟨_, answer, h⟩)
    exact ⟨answer, _, rfl, h⟩
  · rintro ⟨answer, rest, rfl, h⟩
    exact .ask q answer h

@[simp] lemma endsAfter_pure {a : α} {exchanges : List Exchange} {r : Except Failure α} :
    EndsAfter (pure a) exchanges r ↔ exchanges = [] ∧ r = .ok a := endsAfter_done

@[simp] lemma endsAfter_throw {e : Failure} {exchanges : List Exchange} {r : Except Failure α} :
    EndsAfter (throw e) exchanges r ↔ exchanges = [] ∧ r = .error e := endsAfter_done

/-- A script that goes on has its own exchanges first, and then those of the rest. -/
lemma endsAfter_bind_ok {x : Script α} {f : α → Script β} {exchanges : List Exchange} {b : β} :
    EndsAfter (x >>= f) exchanges (.ok b) ↔
      ∃ first a rest, EndsAfter x first (.ok a) ∧ EndsAfter (f a) rest (.ok b) ∧
        exchanges = first ++ rest := by
  induction x generalizing exchanges with
  | done r =>
    cases r with
    | ok a =>
      constructor
      · intro h
        exact ⟨[], a, exchanges, .done _, h, rfl⟩
      · rintro ⟨_, _, rest, ⟨⟩, h, rfl⟩
        exact h
    | error e =>
      constructor
      · rintro ⟨⟩
      · rintro ⟨_, _, _, ⟨⟩, -⟩
  | ask q next ih =>
    simp only [bind_eq, bind, endsAfter_ask] at ih ⊢
    simp only [ih]
    constructor
    · rintro ⟨answer, _, rfl, first, a, rest, ha, hb, rfl⟩
      exact ⟨(q, answer) :: first, a, rest, ⟨answer, first, rfl, ha⟩, hb, rfl⟩
    · rintro ⟨_, a, rest, ⟨answer, first, rfl, ha⟩, hb, rfl⟩
      exact ⟨answer, first ++ rest, rfl, first, a, rest, ha, hb, rfl⟩

/-- A script that goes on fails with its first part, or with the rest after all of its exchanges. -/
lemma endsAfter_bind_error {x : Script α} {f : α → Script β} {exchanges : List Exchange}
    {e : Failure} :
    EndsAfter (x >>= f) exchanges (.error e) ↔
      EndsAfter x exchanges (.error e) ∨ ∃ first a rest, EndsAfter x first (.ok a) ∧
        EndsAfter (f a) rest (.error e) ∧ exchanges = first ++ rest := by
  induction x generalizing exchanges with
  | done r =>
    cases r with
    | ok a =>
      constructor
      · intro h
        exact .inr ⟨[], a, exchanges, .done _, h, rfl⟩
      · rintro (⟨⟨⟩⟩ | ⟨_, _, rest, ⟨⟩, h, rfl⟩)
        exact h
    | error e' =>
      constructor
      · rintro ⟨⟩
        exact .inl (.done _)
      · rintro (⟨⟨⟩⟩ | ⟨_, _, _, ⟨⟩, -⟩)
        exact .done _
  | ask q next ih =>
    simp only [bind_eq, bind, endsAfter_ask] at ih ⊢
    simp only [ih]
    constructor
    · rintro ⟨answer, rest, rfl, he | ⟨first, a, rest, ha, he, rfl⟩⟩
      · exact .inl ⟨answer, rest, rfl, he⟩
      · exact .inr ⟨(q, answer) :: first, a, rest, ⟨answer, first, rfl, ha⟩, he, rfl⟩
    · rintro (⟨answer, rest, rfl, he⟩ | ⟨_, a, rest, ⟨answer, first, rfl, ha⟩, he, rfl⟩)
      · exact ⟨answer, rest, rfl, .inl he⟩
      · exact ⟨answer, first ++ rest, rfl, .inr ⟨first, a, rest, ha, he, rfl⟩⟩

/-- What is done to the value of a script makes no exchange. -/
lemma endsAfter_map_ok {x : Script α} {f : α → β} {exchanges : List Exchange} {b : β} :
    EndsAfter (f <$> x) exchanges (.ok b) ↔ ∃ a, EndsAfter x exchanges (.ok a) ∧ b = f a := by
  rw [map_eq_pure_bind, endsAfter_bind_ok]
  constructor
  · rintro ⟨first, a, _, ha, ⟨⟩, rfl⟩
    rw [List.append_nil]
    exact ⟨a, ha, rfl⟩
  · rintro ⟨a, ha, rfl⟩
    exact ⟨exchanges, a, [], ha, .done _, (List.append_nil _).symm⟩

lemma endsAfter_map_error {x : Script α} {f : α → β} {exchanges : List Exchange} {e : Failure} :
    EndsAfter (f <$> x) exchanges (.error e) ↔ EndsAfter x exchanges (.error e) := by
  rw [map_eq_pure_bind, endsAfter_bind_error]
  simp

/-- A request for its effect is one exchange. -/
lemma endsAfter_perform (q : Request) (v : Value) :
    EndsAfter (perform q) [(q, .ok v)] (.ok ()) := .ask q (.ok v) (.done _)

/-- A result may be come to exactly if some exchanges lead to it. -/
lemma mayEnd_iff_endsAfter {x : Script α} {r : Except Failure α} :
    MayEnd x r ↔ ∃ exchanges, EndsAfter x exchanges r := by
  constructor
  · intro h
    induction h with
    | done r => exact ⟨[], .done r⟩
    | ask q answer _ ih =>
      obtain ⟨exchanges, h⟩ := ih
      exact ⟨_, .ask q answer h⟩
  · rintro ⟨exchanges, h⟩
    induction h with
    | done r => exact .done r
    | ask q answer _ ih => exact .ask q answer ih

lemma EndsAfter.mayEnd {x : Script α} {exchanges : List Exchange} {r : Except Failure α}
    (h : EndsAfter x exchanges r) : MayEnd x r := mayEnd_iff_endsAfter.2 ⟨exchanges, h⟩

end Stencil.Script
