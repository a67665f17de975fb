import Stencil.Proofs.Condition.Negation

/-!
# Evaluation reads texts

A condition does not see the values of its operands.  It asks an operand for its text or for its
truth, and the truth is that of the text; so operands that read as the same texts can stand for each
other, a keyword for a value that is still to be resolved.  The main statement,
`Layout.Alike.evaluate`, is that two conditions of the same shape whose operands read alike, each in
a place of its own, come to the same truth value or fail for the same cause.

A place is a state together with the answers that requests get in it.  The two places need not have
anything in common but the texts.
-/

namespace Stencil

/-- What a failure is for, apart from the condition that its wording shows. -/
def Failure.cause : Failure → Failure
  | .evaluation fault _ _ => .evaluation fault [] []
  | e => e

namespace Condition

/-! ## Places -/

/-- A state, and how requests are answered. -/
structure Place (σ : Type) where
  handler : Request → EStateM Failure σ Value
  state : σ

variable {σ τ α β α' β' : Type}

namespace Place

variable (p : Place σ)

/-- A script that comes to a value and leaves the state as it is. -/
def Gives (x : Script α) (a : α) : Prop := x.run p.handler p.state = .ok a p.state

/-- A script that comes to a failure and leaves the state as it is. -/
def Fails (x : Script α) (e : Failure) : Prop := x.run p.handler p.state = .error e p.state

variable {p}

lemma gives_pure (a : α) : p.Gives (pure a) a := rfl

lemma fails_throw (e : Failure) : p.Fails (throw e : Script α) e := rfl

lemma run_bind (x : Script α) (f : α → Script β) :
    (x >>= f).run p.handler p.state =
      (x.run p.handler >>= fun a => (f a).run p.handler) p.state :=
  congrFun (Script.run_bind p.handler x f) p.state

lemma run_bind_of_gives {x : Script α} {a : α} (hx : p.Gives x a) (f : α → Script β) :
    (x >>= f).run p.handler p.state = (f a).run p.handler p.state := by
  rw [run_bind]
  simp only [Bind.bind, EStateM.bind]
  rw [hx]

lemma Gives.bind {x : Script α} {f : α → Script β} {a : α} {b : β} (hx : p.Gives x a)
    (hf : p.Gives (f a) b) : p.Gives (x >>= f) b := (run_bind_of_gives hx f).trans hf

lemma Gives.bind_fails {x : Script α} {f : α → Script β} {a : α} {e : Failure} (hx : p.Gives x a)
    (hf : p.Fails (f a) e) : p.Fails (x >>= f) e := (run_bind_of_gives hx f).trans hf

lemma Fails.bind {x : Script α} {e : Failure} (hx : p.Fails x e) (f : α → Script β) :
    p.Fails (x >>= f) e := by
  rw [Fails, run_bind]
  simp only [Bind.bind, EStateM.bind]
  rw [hx]

lemma Gives.map {x : Script α} {a : α} (hx : p.Gives x a) (f : α → β) : p.Gives (f <$> x) (f a) := by
  rw [map_eq_pure_bind]
  exact hx.bind (gives_pure _)

/-- An operand that reads as a text. -/
structure Reads (p : Place σ) (o : Operand) (t : Text) : Prop where
  text : p.Gives (o.text Resolver.ofHost) t
  truth : p.Gives (o.truth Resolver.ofHost) (Value.isTrueText t)

lemma reads_literal (b : Bool) : p.Reads (.literal b) (Value.boolText b) where
  text := rfl
  truth := by cases b <;> rfl

lemma reads_computed (t : Text) : p.Reads (.computed t) t := ⟨rfl, rfl⟩

/-- A raw text reads as the text of its value. -/
lemma reads_value {raw : Text} {v : Value}
    (h : p.handler (.resolve (.str raw)) p.state = .ok v p.state) :
    p.Reads (.value raw) v.text := by
  have hrequest : p.Gives (Resolver.ofHost.resolve raw) v := by
    show Script.run p.handler (.ask (.resolve (.str raw)) .done) p.state = _
    simp only [Script.run, h]
    rfl
  exact ⟨hrequest.map Value.text, hrequest.map Value.truth⟩

end Place

/-! ## Evaluations side by side -/

/-- Two scripts, each in its place, that come to related values or fail for the same cause. -/
inductive Alongside (p : Place σ) (q : Place τ) (r : α → β → Prop) (x : Script α)
    (y : Script β) : Prop where
  | value {a : α} {b : β} (hx : p.Gives x a) (hy : q.Gives y b) (h : r a b)
  | failure {e e' : Failure} (hx : p.Fails x e) (hy : q.Fails y e') (h : e.cause = e'.cause)

/-- Two operands that read as the same text. -/
def ReadAlike (p : Place σ) (q : Place τ) (o o' : Operand) : Prop :=
  ∃ t, p.Reads o t ∧ q.Reads o' t

section Alongside

variable {p : Place σ} {q : Place τ} {r : α → β → Prop} {s : α' → β' → Prop}

lemma alongside_pure {a : α} {b : β} (h : r a b) : Alongside p q r (pure a) (pure b) :=
  .value (Place.gives_pure a) (Place.gives_pure b) h

lemma alongside_throw {e e' : Failure} (h : e.cause = e'.cause) :
    Alongside p q r (throw e) (throw e') :=
  .failure (Place.fails_throw e) (Place.fails_throw e') h

lemma Alongside.bind {x : Script α} {y : Script β} {f : α → Script α'} {g : β → Script β'}
    (hxy : Alongside p q r x y) (hfg : ∀ a b, r a b → Alongside p q s (f a) (g b)) :
    Alongside p q s (x >>= f) (y >>= g) := by
  cases hxy with
  | value hx hy h =>
    cases hfg _ _ h with
    | value hf hg h' => exact .value (hx.bind hf) (hy.bind hg) h'
    | failure hf hg h' => exact .failure (hx.bind_fails hf) (hy.bind_fails hg) h'
  | failure hx hy h => exact .failure (hx.bind f) (hy.bind g) h

/-- What follows equal values need only go on alike for each of them. -/
lemma Alongside.bind_eq {x y : Script α} {f : α → Script α'} {g : α → Script β'}
    (hxy : Alongside p q Eq x y) (hfg : ∀ a, Alongside p q s (f a) (g a)) :
    Alongside p q s (x >>= f) (y >>= g) := by
  refine hxy.bind ?_
  rintro a _ rfl
  exact hfg a

lemma readAlike_literal (b : Bool) : ReadAlike p q (.literal b) (.literal b) :=
  ⟨_, Place.reads_literal b, Place.reads_literal b⟩

lemma readAlike_computed (t : Text) : ReadAlike p q (.computed t) (.computed t) :=
  ⟨_, Place.reads_computed t, Place.reads_computed t⟩

lemma ReadAlike.truth {o o' : Operand} (h : ReadAlike p q o o') :
    Alongside p q Eq (o.truth Resolver.ofHost) (o'.truth Resolver.ofHost) := by
  obtain ⟨t, hp, hq⟩ := h
  exact .value hp.truth hq.truth rfl

lemma ReadAlike.text {o o' : Operand} (h : ReadAlike p q o o') :
    Alongside p q Eq (o.text Resolver.ofHost) (o'.text Resolver.ofHost) := by
  obtain ⟨t, hp, hq⟩ := h
  exact .value hp.text hq.text rfl

section Wording

variable {fail fail' : EvaluationFault → Failure} (hfail : ∀ f, (fail f).cause = (fail' f).cause)

include hfail

lemma ReadAlike.integer {o o' : Operand} (h : ReadAlike p q o o') :
    Alongside p q Eq (o.integer fail Resolver.ofHost) (o'.integer fail' Resolver.ofHost) := by
  refine h.text.bind_eq fun t => ?_
  split
  · exact alongside_pure rfl
  · exact alongside_throw (hfail _)

lemma alongside_agrees (subject pattern : Text) :
    Alongside p q Eq (agrees fail subject pattern) (agrees fail' subject pattern) := by
  unfold agrees
  split
  · exact alongside_pure rfl
  · exact alongside_throw (hfail _)
  · exact alongside_throw rfl

/-- A connective makes operands that read alike of such operands. -/
lemma ReadAlike.apply (c : Connective) {left left' right right' : Operand}
    (hl : ReadAlike p q left left') (hr : ReadAlike p q right right') :
    Alongside p q (ReadAlike p q) (c.apply fail Resolver.ofHost left right)
      (c.apply fail' Resolver.ofHost left' right') := by
  have hright := hr.integer hfail
  have hleft := hl.integer hfail
  -- The right operand is asked before the left one, as in the connective.
  cases c with
  | equals =>
    exact hr.text.bind_eq fun pattern => hl.text.bind_eq fun subject =>
      (alongside_agrees hfail subject pattern).bind_eq fun b => alongside_pure (readAlike_literal b)
  | less =>
    exact hright.bind_eq fun n => hleft.bind_eq fun m => alongside_pure (readAlike_literal _)
  | more =>
    exact hright.bind_eq fun n => hleft.bind_eq fun m => alongside_pure (readAlike_literal _)
  | either =>
    exact hr.truth.bind_eq fun b => hl.truth.bind_eq fun a => alongside_pure (readAlike_literal _)
  | both =>
    exact hr.truth.bind_eq fun b => hl.truth.bind_eq fun a => alongside_pure (readAlike_literal _)
  | modulus =>
    refine hright.bind_eq fun divisor => hleft.bind_eq fun dividend => ?_
    split
    · exact alongside_throw (hfail _)
    · exact alongside_pure (readAlike_computed _)
  | divide =>
    refine hright.bind_eq fun divisor => hleft.bind_eq fun dividend => ?_
    split
    · exact alongside_throw (hfail _)
    · exact alongside_pure (readAlike_computed _)

end Wording

lemma alongside_negations {fail fail' : EvaluationFault → Failure} {t t' : Tree}
    (h : Alongside p q (ReadAlike p q) (t.reduce fail Resolver.ofHost)
      (t'.reduce fail' Resolver.ofHost)) (n : Nat) :
    Alongside p q (ReadAlike p q) ((Tree.negate^[n] t).reduce fail Resolver.ofHost)
      ((Tree.negate^[n] t').reduce fail' Resolver.ofHost) := by
  induction n with
  | zero => exact h
  | succ n ih =>
    rw [Function.iterate_succ_apply', Function.iterate_succ_apply']
    exact ih.bind fun o o' ho => ho.truth.bind_eq fun b => alongside_pure (readAlike_literal _)

end Alongside

/-! ## Layouts of the same shape -/

namespace Leaf

/-- The operand that a leaf comes to. -/
def reduced : Leaf → Operand
  | .truth b => .literal b
  | .operand o => o

lemma reduce_tree (fail : EvaluationFault → Failure) (resolver : Resolver) (l : Leaf) :
    l.tree.reduce fail resolver = pure l.reduced := by
  cases l <;> rfl

end Leaf

namespace Layout

variable {functions : FunctionRegistry}

/-- The spellings of the operands of a layout, from left to right. -/
def spellings : Layout functions → List Text
  | .leaf _ spelling _ => [spelling]
  | .group x => x.spellings
  | .negate x => x.spellings
  | .join _ x y => x.spellings ++ y.spellings

/-- The text of a layout is made of operators and of the spellings of its operands. -/
lemma forall_mem_text {P : Char → Prop} (hop : ∀ s : Symbol, P s.char) {x : Layout functions}
    (hx : ∀ t ∈ x.spellings, ∀ ch ∈ t, P ch) : ∀ ch ∈ x.text, P ch := by
  induction x with
  | leaf l t hl => exact hx t (List.mem_singleton.2 rfl)
  | group x ih =>
    simp only [text, List.forall_mem_cons, List.forall_mem_append]
    exact ⟨hop .leftParen, ih hx, hop .rightParen, by simp⟩
  | negate x ih => exact List.forall_mem_cons.2 ⟨hop .negate, ih hx⟩
  | join op x y ihx ihy =>
    obtain ⟨hx, hy⟩ := List.forall_mem_append.1 hx
    simp only [text, List.forall_mem_append, List.forall_mem_cons]
    exact ⟨ihx hx, hop op.symbol, ihy hy⟩

/-- Two layouts of the same shape with related leaves, the spelling of the leaves included. -/
inductive Alike (r : Leaf → Text → Leaf → Text → Prop) :
    Layout functions → Layout functions → Prop where
  | leaf {l l' : Leaf} {t t' : Text} {spells : Spells functions l t}
      {spells' : Spells functions l' t'} (h : r l t l' t') :
      Alike r (.leaf l t spells) (.leaf l' t' spells')
  | group {x y : Layout functions} (h : Alike r x y) : Alike r (.group x) (.group y)
  | negate {x y : Layout functions} (h : Alike r x y) : Alike r (.negate x) (.negate y)
  | join (c : Connective) {x y x' y' : Layout functions} (hx : Alike r x x') (hy : Alike r y y') :
      Alike r (.join c x y) (.join c x' y')

namespace Alike

variable {r : Leaf → Text → Leaf → Text → Prop} {x y : Layout functions}

lemma nests {rank : Nat} (h : Alike r x y) (hx : x.Nests rank) : y.Nests rank := by
  induction h generalizing rank with
  | leaf _ => trivial
  | group _ ih => exact ih hx
  | negate _ ih => exact ⟨hx.1, ih hx.2⟩
  | join c _ _ ihx ihy => exact ⟨hx.1, ihx hx.2.1, ihy hx.2.2⟩

lemma isNegation_eq (h : Alike r x y) : x.isNegation = y.isNegation := by
  cases h <;> rfl

lemma surplus_eq (h : Alike r x y) : x.surplus = y.surplus := by
  induction h with
  | leaf _ => rfl
  | group _ ih => exact ih
  | negate h ih => rw [surplus, surplus, ih, h.isNegation_eq]
  | join _ _ _ ih _ => exact ih

section Evaluation

variable {p : Place σ} {q : Place τ} {fail fail' : EvaluationFault → Failure}
  (hfail : ∀ f, (fail f).cause = (fail' f).cause)
  (hr : ∀ l t l' t', r l t l' t' → Spells functions l t → Spells functions l' t' →
    ReadAlike p q l.reduced l'.reduced)

include hfail hr

lemma reduce (h : Alike r x y) :
    Alongside p q (ReadAlike p q) (x.settled.reduce fail Resolver.ofHost)
      (y.settled.reduce fail' Resolver.ofHost) := by
  induction h with
  | @leaf l l' t t' spells spells' h =>
    simp only [settled, Leaf.reduce_tree]
    exact alongside_pure (hr l t l' t' h spells spells')
  | group _ ih => exact ih
  | @negate x y h ih =>
    rw [settled, settled, ← h.isNegation_eq]
    cases x.isNegation with
    | true => exact ih
    | false => exact alongside_negations ih 1
  | @join c x y x' y' hx hy ihx ihy =>
    rw [settled, settled, ← hy.surplus_eq]
    exact (alongside_negations ihx y.surplus).bind fun o o' ho =>
      ihy.bind fun o₂ o₂' ho₂ => ho.apply hfail c ho₂

/-- **Evaluation reads texts and nothing else.**  Conditions of the same shape whose operands read
as the same texts come to the same truth value or fail for the same cause, whatever kinds of
operands they are and whatever else is different between the places where they are evaluated. -/
theorem evaluate (h : Alike r x y) :
    Alongside p q Eq (x.settled.evaluate fail Resolver.ofHost)
      (y.settled.evaluate fail' Resolver.ofHost) :=
  (h.reduce hfail hr).bind fun _ _ ho => ho.truth

end Evaluation

end Alike

end Layout

end Condition

end Stencil
