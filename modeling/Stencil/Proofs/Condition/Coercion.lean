import Stencil.Proofs.Condition.Height
import Stencil.Proofs.Script.Exchange

/-!
# Every operand is coerced once

The operands of a program are lazy: a marker puts an operand on the stack as it is, and only what
takes it from there asks for its truth or its text.  Still, no operand goes unasked.  If an
evaluation has a value, then each operand that a marker has brought has been asked exactly once
(`evaluate_coerces_once`), also beside a `|` or `&` that is decided already, and also where the
instructions do not fit together.

An operand may answer without asking the host for anything, and then nothing shows that it was asked
itself.  The evaluation is therefore compared with that of `Program.noting`, whose operands leave a
note whenever they are asked, each a note of its own.  A `Coercion` is an operand being asked once,
with the exchanges on the way, and both evaluations consist of the same coercions.

On the stack there are results of operators, and operands of which it is known by which marker they
were brought (`Entry`).  A step coerces the entries that it takes and puts a result in their place
(`follows_of_step`), so the operands that are coerced and those on the stack are together the ones
that were brought (`Leads.places`).  An entry may be left over at the end, but only the one at the
bottom, and this is never an operand that a marker has brought (`Grounded`): it is the `false` of
the start, or a result in its place.
-/

namespace Stencil.Condition

open Script (Exchange EndsAfter endsAfter_throw endsAfter_bind_ok endsAfter_map_ok
  endsAfter_perform)
open scoped List

/-! ## Operands that leave notes -/

/-- What an operand means when it leaves a note first. -/
def Operand.notingKind (message : Text) (o : Operand) : FunctionKind where
  className := []
  truth resolver _ := do
    Script.perform (.note message)
    o.truth resolver
  value resolver _ := do
    Script.perform (.note message)
    return .str (← o.text resolver)

/-- The operand that leaves a note whenever it is asked, and then answers as before. -/
def Operand.noting (message : Text) (o : Operand) : Operand :=
  .call { name := [], kind := o.notingKind message, arguments := [] }

/-- The program with operands that leave notes. -/
def Program.noting (message : Nat → Text) (p : Program) : Program :=
  { p with operands := p.operands.mapIdx fun place o => o.noting (message place) }

lemma Operand.truth_noting (message : Text) (o : Operand) (resolver : Resolver) :
    (o.noting message).truth resolver =
      Script.perform (.note message) >>= fun _ => o.truth resolver := rfl

lemma Operand.text_noting (message : Text) (o : Operand) (resolver : Resolver) :
    (o.noting message).text resolver =
      Script.perform (.note message) >>= fun _ => o.text resolver := by
  simp [text, noting, notingKind]

/-! ## Coercions -/

/-- An operand of a program asked once for its truth or its text, with what it asks of the host for
that. -/
structure Coercion (p : Program) (resolver : Resolver) where
  /-- The place of the operand among all, which is that of its marker among the markers. -/
  place : Nat
  operand : Operand
  exchanges : List Exchange
  operand_eq : p.operands[place]? = some operand
  coerced : (∃ b, EndsAfter (operand.truth resolver) exchanges (.ok b)) ∨
    ∃ t, EndsAfter (operand.text resolver) exchanges (.ok t)

variable {p : Program} {resolver : Resolver}

/-- The exchanges of a coercion when the operand leaves a note. -/
def Coercion.noted (message : Nat → Text) (c : Coercion p resolver) : List Exchange :=
  (.note (message c.place), .ok .none) :: c.exchanges

/-- To coerce a value is to resolve it once. -/
lemma Coercion.endsAfter_resolve (c : Coercion p resolver) {raw : Text}
    (h : c.operand = .value raw) :
    ∃ v, EndsAfter (resolver.resolve raw) c.exchanges (.ok v) := by
  rcases c.coerced with ⟨b, hb⟩ | ⟨t, ht⟩
  · rw [h, Operand.truth, endsAfter_map_ok] at hb
    obtain ⟨v, hv, -⟩ := hb
    exact ⟨v, hv⟩
  · rw [h, Operand.text, endsAfter_map_ok] at ht
    obtain ⟨v, hv, -⟩ := ht
    exact ⟨v, hv⟩

section Coerces

variable {α β : Type} {places later : List Nat} {x : Script α} {y : (Nat → Text) → Script α}

/-- Whenever a script comes to a value, it has coerced the operands at certain places, in this
order, and asked for nothing else.  The script `y`, with operands that leave notes, comes to the
same value. -/
def Coerces (p : Program) (resolver : Resolver) (places : List Nat) (x : Script α)
    (y : (Nat → Text) → Script α) : Prop :=
  ∀ exchanges a, EndsAfter x exchanges (.ok a) →
    ∃ coercions : List (Coercion p resolver), coercions.map Coercion.place = places ∧
      coercions.flatMap Coercion.exchanges = exchanges ∧
      ∀ message, EndsAfter (y message) (coercions.flatMap (Coercion.noted message)) (.ok a)

/-- A script that asks for nothing by itself. -/
def Silent (p : Program) (resolver : Resolver) (x : Script α) : Prop :=
  Coerces p resolver [] x fun _ => x

lemma silent_pure (a : α) : Silent p resolver (pure a) := by
  intro exchanges a' h
  obtain ⟨rfl, rfl⟩ : exchanges = [] ∧ a' = a := by simpa using h
  exact ⟨[], rfl, rfl, fun _ => .done _⟩

lemma coerces_throw (e : Failure) : Coerces p resolver places (throw e) y := by
  intro exchanges a h
  obtain ⟨-, ⟨⟩⟩ := endsAfter_throw.1 h

lemma silent_ite (c : Prop) [Decidable c] (e : Failure) (a : α) :
    Silent p resolver (if c then throw e else pure a) := by
  by_cases hc : c
  · rw [if_pos hc]
    exact coerces_throw e
  · rw [if_neg hc]
    exact silent_pure a

/-- Coercions follow one another as the scripts do. -/
lemma Coerces.bind {f : α → Script β} {g : α → (Nat → Text) → Script β}
    (hx : Coerces p resolver places x y) (hf : ∀ a, Coerces p resolver later (f a) (g a)) :
    Coerces p resolver (places ++ later) (x >>= f) fun message =>
      y message >>= fun a => g a message := by
  intro exchanges b h
  obtain ⟨first, a, rest, ha, hb, rfl⟩ := endsAfter_bind_ok.1 h
  obtain ⟨coercions, hplaces, rfl, hnoted⟩ := hx first a ha
  obtain ⟨coercions', hplaces', rfl, hnoted'⟩ := hf a rest b hb
  refine ⟨coercions ++ coercions', ?_, List.flatMap_append, fun message => ?_⟩
  · rw [List.map_append, hplaces, hplaces']
  · rw [List.flatMap_append]
    exact endsAfter_bind_ok.2 ⟨_, a, _, hnoted message, hnoted' message, rfl⟩

lemma Coerces.bind_silent {f : α → Script β} (hx : Coerces p resolver places x y)
    (hf : ∀ a, Silent p resolver (f a)) :
    Coerces p resolver places (x >>= f) fun message => y message >>= f := by
  have h := hx.bind hf
  rwa [List.append_nil] at h

/-- An operand that leaves a note is coerced in the same way as without. -/
lemma coerces_noting {place : Nat} {o : Operand} (ho : p.operands[place]? = some o)
    (hx : ∀ exchanges a, EndsAfter x exchanges (.ok a) →
      (∃ b, EndsAfter (o.truth resolver) exchanges (.ok b)) ∨
        ∃ t, EndsAfter (o.text resolver) exchanges (.ok t)) :
    Coerces p resolver [place] x fun message =>
      Script.perform (.note (message place)) >>= fun _ => x := by
  intro exchanges a h
  refine ⟨[⟨place, o, exchanges, ho, hx exchanges a h⟩], rfl, ?_, fun message => ?_⟩
  · rw [List.flatMap_singleton]
  · rw [List.flatMap_singleton]
    exact endsAfter_bind_ok.2 ⟨_, (), _, endsAfter_perform _ .none, h, rfl⟩

end Coerces

/-! ## Entries of the stack -/

/-- What lies on the stack: a result of an operator, or an operand that a marker has brought. -/
inductive Entry (p : Program) where
  | result (o : Operand) (ho : o.IsResult)
  | brought (place : Nat) (o : Operand) (ho : p.operands[place]? = some o)

namespace Entry

/-- The operand that an entry is. -/
def operand : Entry p → Operand
  | .result o _ => o
  | .brought _ o _ => o

/-- The operand that an entry is where those of the program leave notes. -/
def noting (message : Nat → Text) : Entry p → Operand
  | .result o _ => o
  | .brought place o _ => o.noting (message place)

/-- The marker that has brought an entry, if one has. -/
def places : Entry p → List Nat
  | .result _ _ => []
  | .brought place _ _ => [place]

variable (e : Entry p)

lemma coerces_truth :
    Coerces p resolver e.places (e.operand.truth resolver) fun message =>
      (e.noting message).truth resolver := by
  cases e with
  | result o ho =>
    cases o with
    | literal b => exact silent_pure b
    | computed t => exact silent_pure _
    | value raw => exact ho.elim
    | call c => exact ho.elim
  | brought place o ho =>
    simp only [noting, Operand.truth_noting]
    exact coerces_noting ho fun _ b hb => .inl ⟨b, hb⟩

lemma coerces_text :
    Coerces p resolver e.places (e.operand.text resolver) fun message =>
      (e.noting message).text resolver := by
  cases e with
  | result o ho =>
    cases o with
    | literal b => exact silent_pure _
    | computed t => exact silent_pure t
    | value raw => exact ho.elim
    | call c => exact ho.elim
  | brought place o ho =>
    simp only [noting, Operand.text_noting]
    exact coerces_noting ho fun _ t ht => .inr ⟨t, ht⟩

lemma coerces_integer (fail : EvaluationFault → Failure) :
    Coerces p resolver e.places (e.operand.integer fail resolver) fun message =>
      (e.noting message).integer fail resolver := by
  refine e.coerces_text.bind_silent fun t => ?_
  split
  · exact silent_pure _
  · exact coerces_throw _

end Entry

lemma silent_agrees (fail : EvaluationFault → Failure) (subject pattern : Text) :
    Silent p resolver (agrees fail subject pattern) := by
  unfold agrees
  split
  · exact silent_pure _
  · exact coerces_throw _
  · exact coerces_throw _

/-- A connective asks the right operand and then the left one, whatever the right one answers. -/
lemma Connective.coerces_apply (c : Connective) (fail : EvaluationFault → Failure)
    (left right : Entry p) :
    Coerces p resolver (right.places ++ left.places)
      (c.apply fail resolver left.operand right.operand) fun message =>
      c.apply fail resolver (left.noting message) (right.noting message) := by
  -- All connectives ask in this order; they differ in the coercion, and in what they make of the
  -- values.
  cases c with
  | equals =>
    refine right.coerces_text.bind fun pattern => left.coerces_text.bind_silent fun subject => ?_
    exact (silent_agrees fail subject pattern).bind_silent fun b => silent_pure _
  | less =>
    exact (right.coerces_integer fail).bind fun n =>
      (left.coerces_integer fail).bind_silent fun m => silent_pure _
  | more =>
    exact (right.coerces_integer fail).bind fun n =>
      (left.coerces_integer fail).bind_silent fun m => silent_pure _
  | either =>
    exact right.coerces_truth.bind fun b => left.coerces_truth.bind_silent fun a => silent_pure _
  | both =>
    exact right.coerces_truth.bind fun b => left.coerces_truth.bind_silent fun a => silent_pure _
  | modulus =>
    exact (right.coerces_integer fail).bind fun divisor =>
      (left.coerces_integer fail).bind_silent fun dividend => silent_ite _ _ _
  | divide =>
    exact (right.coerces_integer fail).bind fun divisor =>
      (left.coerces_integer fail).bind_silent fun dividend => silent_ite _ _ _

/-- Whether there is an entry at the bottom that no marker has brought. -/
def Grounded (entries : List (Entry p)) : Prop := ∃ e ∈ entries.getLast?, e.places = []

section Grounded

variable {e : Entry p} {entries : List (Entry p)}

lemma Grounded.push (h : Grounded entries) (e : Entry p) : Grounded (e :: entries) := by
  obtain ⟨last, hlast, hplaces⟩ := h
  refine ⟨last, ?_, hplaces⟩
  rw [List.getLast?_cons, hlast]
  rfl

/-- An entry may be replaced by one that no marker has brought. -/
lemma Grounded.replace (h : Grounded (e :: entries)) {r : Entry p} (hr : r.places = []) :
    Grounded (r :: entries) := by
  cases entries with
  | nil => exact ⟨r, rfl, hr⟩
  | cons e' entries =>
    obtain ⟨last, hlast, hplaces⟩ := h
    exact ⟨last, by rwa [List.getLast?_cons_cons] at hlast ⊢, hplaces⟩

lemma Grounded.of_cons_cons {e' : Entry p} (h : Grounded (e :: e' :: entries)) :
    Grounded (e' :: entries) := by
  obtain ⟨last, hlast, hplaces⟩ := h
  exact ⟨last, by rwa [List.getLast?_cons_cons] at hlast, hplaces⟩

/-- Where at most one entry lies below the top, no marker has brought it. -/
lemma Grounded.flatMap_places (h : Grounded (e :: entries)) (hlength : entries.length ≤ 1) :
    entries.flatMap Entry.places = [] := by
  rcases entries with _ | ⟨last, _ | ⟨_, _⟩⟩
  · rfl
  · obtain ⟨_, ⟨⟩, hplaces⟩ := h
    simpa using hplaces
  · simp at hlength

end Grounded

/-! ## Watched runs -/

/-- A machine of which it is known by which markers its operands were brought, and how many markers
there were. -/
structure Watch (p : Program) where
  entries : List (Entry p)
  taken : Nat
  grounded : Grounded entries

namespace Watch

/-- The machine that is watched. -/
def machine (w : Watch p) : Machine where
  stack := w.entries.map Entry.operand
  waiting := p.operands.drop w.taken

/-- The machine where operands leave notes. -/
def noting (message : Nat → Text) (w : Watch p) : Machine where
  stack := w.entries.map (Entry.noting message)
  waiting := (p.noting message).operands.drop w.taken

/-- The machine before the first instruction. -/
def start (p : Program) : Watch p where
  entries := [.result (.literal false) trivial]
  taken := 0
  grounded := ⟨_, rfl, rfl⟩

/-- The markers whose operands are on the stack. -/
def places (w : Watch p) : List Nat := w.entries.flatMap Entry.places

end Watch

/-- Code leads from one watched machine to another, with coercions on the way.  The operands that
are coerced and those that are on the stack then are the ones that were there and those that the
markers of the code have brought. -/
structure Leads (code : List Symbol) (w w' : Watch p) (coercions : List (Coercion p resolver)) :
    Prop where
  taken : w'.taken = w.taken + code.count .operand
  places : (coercions.map Coercion.place ++ w'.places).Perm
    (w.places ++ List.range' w.taken (code.count .operand))
  noted : ∀ message, EndsAfter ((p.noting message).steps resolver code (w.noting message))
    (coercions.flatMap (Coercion.noted message)) (.ok (w'.noting message))

lemma Leads.nil (w : Watch p) : Leads [] w w ([] : List (Coercion p resolver)) where
  taken := rfl
  places := by simp
  noted _ := .done _

lemma Leads.append {first rest : List Symbol} {w w₁ w₂ : Watch p}
    {coercions coercions' : List (Coercion p resolver)} (h : Leads first w w₁ coercions)
    (h' : Leads rest w₁ w₂ coercions') : Leads (first ++ rest) w w₂ (coercions ++ coercions') where
  taken := by rw [h'.taken, h.taken, List.count_append, Nat.add_assoc]
  places := by
    have hrange : List.range' w.taken (first.count .operand) ++
        List.range' w₁.taken (rest.count .operand) =
        List.range' w.taken ((first ++ rest).count .operand) := by
      rw [h.taken, List.range'_append_1, List.count_append]
    calc (coercions ++ coercions').map Coercion.place ++ w₂.places
        = coercions.map Coercion.place ++ (coercions'.map Coercion.place ++ w₂.places) := by
          rw [List.map_append, List.append_assoc]
      _ ~ coercions.map Coercion.place ++
            (w₁.places ++ List.range' w₁.taken (rest.count .operand)) := h'.places.append_left _
      _ = (coercions.map Coercion.place ++ w₁.places) ++
            List.range' w₁.taken (rest.count .operand) := (List.append_assoc _ _ _).symm
      _ ~ (w.places ++ List.range' w.taken (first.count .operand)) ++
            List.range' w₁.taken (rest.count .operand) := h.places.append_right _
      _ = w.places ++ List.range' w.taken ((first ++ rest).count .operand) := by
          rw [List.append_assoc, hrange]
  noted message := by
    rw [Program.steps_append, List.flatMap_append]
    exact endsAfter_bind_ok.2 ⟨_, _, _, h.noted message, h'.noted message, rfl⟩

/-- The operand that waits first is brought by the next marker; where operands leave notes it is
the one with the note of this marker. -/
lemma drop_operands {place : Nat} {o : Operand} {waiting : List Operand}
    (h : p.operands.drop place = o :: waiting) :
    p.operands[place]? = some o ∧ p.operands.drop (place + 1) = waiting ∧
      ∀ message, (p.noting message).operands.drop place =
        o.noting (message place) :: (p.noting message).operands.drop (place + 1) := by
  have ho : p.operands[place]? = some o := by
    rw [← List.head?_drop, h]
    rfl
  refine ⟨ho, ?_, fun message => ?_⟩
  · rw [← List.tail_drop, h]
    rfl
  · have hnoting : (p.noting message).operands[place]? = some (o.noting (message place)) := by
      simp [Program.noting, ho]
    obtain ⟨hlt, heq⟩ := List.getElem?_eq_some_iff.1 hnoting
    rw [List.drop_eq_getElem_cons hlt, heq]

/-- An instruction that is no marker brings nothing. -/
lemma leads_of_ne {s : Symbol} {w w' : Watch p} {coercions : List (Coercion p resolver)}
    (hs : s ≠ .operand) (htaken : w'.taken = w.taken)
    (hplaces : (coercions.map Coercion.place ++ w'.places).Perm w.places)
    (hnoted : ∀ message, EndsAfter ((p.noting message).step resolver (w.noting message) s)
      (coercions.flatMap (Coercion.noted message)) (.ok (w'.noting message))) :
    Leads [s] w w' coercions where
  taken := by
    rw [htaken, List.count_singleton, beq_false_of_ne hs]
    rfl
  places := by
    rw [List.count_singleton, beq_false_of_ne hs]
    simpa using hplaces
  noted message := by
    simpa [Program.steps] using hnoted message

/-- Code comes from a watched machine to a machine that can be watched on, and all exchanges on the
way are those of coercions. -/
def Follows (resolver : Resolver) (code : List Symbol) (w : Watch p) (exchanges : List Exchange)
    (m : Machine) : Prop :=
  ∃ (w' : Watch p) (coercions : List (Coercion p resolver)), w'.machine = m ∧
    coercions.flatMap Coercion.exchanges = exchanges ∧ Leads code w w' coercions

section Steps

variable {entries : List (Entry p)} {taken : Nat} {exchanges : List Exchange}

lemma follows_truth (hw : Grounded entries) (b : Bool) :
    Follows resolver [if b then .yes else .no] ⟨entries, taken, hw⟩ []
      { stack := .literal b :: entries.map Entry.operand, waiting := p.operands.drop taken } := by
  refine ⟨⟨.result (.literal b) trivial :: entries, taken, hw.push _⟩, [], rfl, rfl, ?_⟩
  refine leads_of_ne (by cases b <;> simp) rfl (by simp [Watch.places, Entry.places]) ?_
  intro message
  cases b <;> exact .done _

lemma follows_take (hw : Grounded entries) {o : Operand} {waiting : List Operand}
    (h : p.operands.drop taken = o :: waiting) :
    Follows resolver [.operand] ⟨entries, taken, hw⟩ []
      { stack := o :: entries.map Entry.operand, waiting } := by
  obtain ⟨ho, rfl, hnoting⟩ := drop_operands h
  refine ⟨⟨.brought taken o ho :: entries, taken + 1, hw.push _⟩, [], rfl, rfl, rfl, ?_, ?_⟩
  · simpa [Watch.places, Entry.places] using
      (List.perm_append_comm : ([taken] ++ entries.flatMap Entry.places).Perm _)
  · intro message
    simp only [Program.steps, Watch.noting, Program.step, hnoting]
    exact .done _

lemma follows_paren (hw : Grounded entries) {s : Symbol}
    (hs : s = .leftParen ∨ s = .rightParen) :
    Follows resolver [s] ⟨entries, taken, hw⟩ [] (Watch.machine ⟨entries, taken, hw⟩) := by
  refine ⟨⟨entries, taken, hw⟩, [], rfl, rfl, ?_⟩
  refine leads_of_ne (by rcases hs with rfl | rfl <;> simp) rfl (.refl _) ?_
  intro message
  rcases hs with rfl | rfl <;> exact .done _

lemma follows_negate {e : Entry p} (hw : Grounded (e :: entries)) {b : Bool}
    (h : EndsAfter (e.operand.truth resolver) exchanges (.ok b)) :
    Follows resolver [.negate] ⟨e :: entries, taken, hw⟩ exchanges
      { stack := .literal (!b) :: entries.map Entry.operand
        waiting := p.operands.drop taken } := by
  obtain ⟨coercions, hplaces, hexchanges, hnoted⟩ := e.coerces_truth exchanges b h
  refine ⟨⟨.result (.literal !b) trivial :: entries, taken, hw.replace rfl⟩, coercions, rfl,
    hexchanges, ?_⟩
  refine leads_of_ne (by simp) rfl (by simp [Watch.places, hplaces, Entry.places]) ?_
  intro message
  simp only [Watch.noting, List.map_cons, Program.step_negate]
  exact endsAfter_bind_ok.2 ⟨_, b, [], hnoted message, .done _, (List.append_nil _).symm⟩

lemma follows_join {left right : Entry p} (hw : Grounded (right :: left :: entries))
    {c : Connective} {r : Operand}
    (h : EndsAfter (c.apply p.fault resolver left.operand right.operand) exchanges (.ok r)) :
    Follows resolver [c.symbol] ⟨right :: left :: entries, taken, hw⟩ exchanges
      { stack := r :: entries.map Entry.operand, waiting := p.operands.drop taken } := by
  obtain ⟨coercions, hplaces, hexchanges, hnoted⟩ :=
    c.coerces_apply p.fault left right exchanges r h
  refine ⟨⟨.result r (c.isResult_of_apply h.mayEnd) :: entries, taken,
    hw.of_cons_cons.replace rfl⟩, coercions, rfl, hexchanges, ?_⟩
  refine leads_of_ne (by cases c <;> simp [Connective.symbol]) rfl
    (by simp [Watch.places, hplaces, Entry.places]) ?_
  intro message
  simp only [Watch.noting, List.map_cons, Program.step_symbol]
  exact endsAfter_bind_ok.2 ⟨_, r, [], hnoted message, .done _, (List.append_nil _).symm⟩

end Steps

/-- **What a step does to a watched machine**: the entries that it takes are coerced, and a result
comes in their place; a marker brings its operand. -/
lemma follows_of_step {w : Watch p} {s : Symbol} {exchanges : List Exchange} {m : Machine}
    (h : EndsAfter (p.step resolver w.machine s) exchanges (.ok m)) :
    Follows resolver [s] w exchanges m := by
  obtain ⟨entries, taken, hw⟩ := w
  -- How the machine moves shows what lay on top of the stack, and so which entries were there.
  have hmoves := moves_of_step h.mayEnd
  generalize hbefore : Watch.machine ⟨entries, taken, hw⟩ = before at h hmoves
  cases hmoves with
  | truth b =>
    subst hbefore
    have hexchanges : exchanges = [] := by cases b <;> simpa [Program.step] using h
    rw [hexchanges]
    exact follows_truth hw b
  | take o stack waiting =>
    obtain ⟨rfl, hwaiting⟩ : entries.map Entry.operand = stack ∧
        p.operands.drop taken = o :: waiting := by simpa [Watch.machine] using hbefore
    obtain rfl : exchanges = [] := by simpa [Program.step] using h
    exact follows_take hw hwaiting
  | paren hs =>
    subst hbefore
    obtain rfl : exchanges = [] := by rcases hs with rfl | rfl <;> simpa [Program.step] using h
    exact follows_paren hw hs
  | @negate r o stack waiting hr =>
    obtain ⟨hstack, rfl⟩ : entries.map Entry.operand = o :: stack ∧
        p.operands.drop taken = waiting := by simpa [Watch.machine] using hbefore
    obtain ⟨e, rest, rfl, rfl, rfl⟩ := List.map_eq_cons_iff.1 hstack
    rw [Program.step_negate, endsAfter_bind_ok] at h
    obtain ⟨first, b, _, hb, h, rfl⟩ := h
    obtain ⟨rfl, rfl⟩ : _ = [] ∧ r = .literal (!b) := by simpa using h
    rw [List.append_nil]
    exact follows_negate hw hb
  | @join r c right left stack waiting hr =>
    obtain ⟨hstack, rfl⟩ : entries.map Entry.operand = right :: left :: stack ∧
        p.operands.drop taken = waiting := by simpa [Watch.machine] using hbefore
    obtain ⟨e, _, rfl, rfl, hrest⟩ := List.map_eq_cons_iff.1 hstack
    obtain ⟨e', rest, rfl, rfl, rfl⟩ := List.map_eq_cons_iff.1 hrest
    rw [Program.step_symbol, endsAfter_bind_ok] at h
    obtain ⟨first, r', _, hr', h, rfl⟩ := h
    obtain ⟨rfl, rfl⟩ : _ = [] ∧ r = r' := by simpa using h
    rw [List.append_nil]
    exact follows_join hw hr'

/-- A run does step by step what its instructions do. -/
lemma follows_of_steps {code : List Symbol} {w : Watch p} {exchanges : List Exchange} {m : Machine}
    (h : EndsAfter (p.steps resolver code w.machine) exchanges (.ok m)) :
    Follows resolver code w exchanges m := by
  induction code generalizing w exchanges with
  | nil =>
    obtain ⟨rfl, rfl⟩ : exchanges = [] ∧ m = w.machine := by simpa [Program.steps] using h
    exact ⟨w, [], rfl, rfl, .nil w⟩
  | cons s code ih =>
    rw [Program.steps, endsAfter_bind_ok] at h
    obtain ⟨first, m₁, rest, hstep, hrest, rfl⟩ := h
    obtain ⟨w₁, coercions, rfl, rfl, hfirst⟩ := follows_of_step hstep
    obtain ⟨w₂, coercions', rfl, rfl, hthen⟩ := ih hrest
    exact ⟨w₂, coercions ++ coercions', rfl, List.flatMap_append, hfirst.append hthen⟩

/-- The end of a run coerces what is left, save for the entry at the bottom. -/
lemma coerces_finish (w : Watch p) :
    Coerces p resolver w.places (p.finish resolver w.machine) fun message =>
      (p.noting message).finish resolver (w.noting message) := by
  obtain ⟨entries, taken, hw⟩ := w
  cases entries with
  | nil =>
    obtain ⟨_, ⟨⟩, -⟩ := hw
  | cons e entries =>
    simp only [Watch.machine, Watch.noting, List.map_cons, finish_cons, List.length_map,
      Watch.places, List.flatMap_cons]
    refine e.coerces_truth.bind fun b => ?_
    -- With more than one entry below the top the run has no value, whatever these entries are.
    by_cases hlength : 1 < entries.length
    · simp only [if_pos hlength]
      exact coerces_throw _
    · rw [hw.flatMap_places (by omega)]
      simp only [if_neg hlength]
      exact silent_pure b

/-! ## Evaluations -/

/-- **Every operand is coerced exactly once.**  If an evaluation has a value, whatever the
instructions and the operands of the program are, then it consists of coercions, one for each marker
in the code, in some order.  Each asks the operand of the marker for its truth or its text, which
for a value is to resolve it once, and nothing is asked of the host apart from them.  With operands
that leave notes the evaluation comes to the same truth value, and its exchanges are the same
coercions, each after the note of its operand: every operand that a marker has brought leaves its
note, and leaves it once. -/
theorem evaluate_coerces_once {exchanges : List Exchange} {b : Bool}
    (h : EndsAfter (p.evaluate resolver) exchanges (.ok b)) :
    ∃ coercions : List (Coercion p resolver),
      (coercions.map Coercion.place).Perm (List.range (p.code.count .operand)) ∧
      coercions.flatMap Coercion.exchanges = exchanges ∧
      (∀ c ∈ coercions, ∀ raw, c.operand = .value raw →
        ∃ v, EndsAfter (resolver.resolve raw) c.exchanges (.ok v)) ∧
      ∀ message, EndsAfter ((p.noting message).evaluate resolver)
        (coercions.flatMap (Coercion.noted message)) (.ok b) := by
  rw [Program.evaluate, endsAfter_bind_ok] at h
  obtain ⟨first, m, rest, hsteps, hfinish, rfl⟩ := h
  obtain ⟨w, coercions, rfl, rfl, hleads⟩ := follows_of_steps (w := .start p) hsteps
  obtain ⟨coercions', hplaces, rfl, hnoted⟩ := coerces_finish w rest b hfinish
  refine ⟨coercions ++ coercions', ?_, List.flatMap_append,
    fun c _ raw hc => c.endsAfter_resolve hc, fun message => ?_⟩
  · rw [List.map_append, hplaces, List.range_eq_range']
    simpa [Watch.start, Watch.places, Entry.places] using hleads.places
  · rw [List.flatMap_append, Program.evaluate]
    exact endsAfter_bind_ok.2 ⟨_, _, _, hleads.noted message, hnoted message, rfl⟩

/-- A program whose value is that of its last marker: `|` joins the result of `&` and the `false` at
the bottom, and what comes of this is left over.  There is an unmatched parenthesis, and an operand
beyond the markers. -/
def looseProgram : Program where
  source := ['a', '&', 'b', '(', '|', 'c']
  code := [.operand, .operand, .both, .leftParen, .either, .operand]
  operands := [.value ['a'], .value ['b'], .value ['c'], .value ['d']]

/-- The right operand of `&` is false and the left one is asked nevertheless; the operand beyond the
markers is not asked. -/
theorem evaluate_coerces_once_loose :
    EndsAfter (looseProgram.evaluate Resolver.ofHost)
        [(.resolve (.str ['b']), .ok (.bool false)), (.resolve (.str ['a']), .ok (.bool true)),
          (.resolve (.str ['c']), .ok (.bool true))] (.ok true) ∧
      ∃ coercions : List (Coercion looseProgram Resolver.ofHost),
        (coercions.map Coercion.place).Perm [0, 1, 2] ∧
        coercions.flatMap Coercion.exchanges =
          [(.resolve (.str ['b']), .ok (.bool false)), (.resolve (.str ['a']), .ok (.bool true)),
            (.resolve (.str ['c']), .ok (.bool true))] ∧
        ∀ message, EndsAfter ((looseProgram.noting message).evaluate Resolver.ofHost)
          (coercions.flatMap (Coercion.noted message)) (.ok true) := by
  have hrun : EndsAfter (looseProgram.evaluate Resolver.ofHost)
      [(.resolve (.str ['b']), .ok (.bool false)), (.resolve (.str ['a']), .ok (.bool true)),
        (.resolve (.str ['c']), .ok (.bool true))] (.ok true) :=
    .ask _ _ (.ask _ _ (.ask _ _ (.done _)))
  obtain ⟨coercions, hplaces, hexchanges, -, hnoted⟩ := evaluate_coerces_once hrun
  exact ⟨hrun, coercions, hplaces, hexchanges, hnoted⟩

end Stencil.Condition
