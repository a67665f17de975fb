import Stencil.Condition.Machine
import Stencil.Proofs.Condition.Arguments
import Stencil.Proofs.Script.Conduct
import Stencil.Proofs.Text.Vocabulary

/-!
# The conduct of conditions

The script of a program asks for nothing by itself: it is its operands that ask, when an operator
wants their truth or their text.  So a conduct that is kept to by what is asked of the operands
(`Covers`) is kept to by the whole evaluation, whatever the instructions are.

What carries the argument through the instructions is that every operand on the stack is one of the
program's, or a truth value or the text of a number that an operator has left.  And those of the
program are in every vocabulary that the condition is in, with registered functions for the calls
(`Operand.IsIn`).  The main statement is `Covers.evaluate_condition`.
-/

namespace Stencil.Condition

open Script (Conduct)

variable {α : Type}

/-! ## Operands -/

/-- An operand that is written in a vocabulary: a text of it, or a call of the function that is
registered under one, with texts of it for arguments. -/
inductive Operand.IsIn (functions : FunctionRegistry) (V : Vocabulary) : Operand → Prop where
  | value {raw : Text} (hraw : V.Writes raw) : IsIn functions V (.value raw)
  | call {name : Text} {c : Call} (hname : V.Writes name)
      (hkind : functions.find? name = some (.calls c.kind))
      (harguments : ∀ raw ∈ c.arguments, V.Writes raw) : IsIn functions V (.call c)

section Operands

open Vocabulary (writes_cons writes_span writes_filter writes_of_join)

variable {functions : FunctionRegistry} {V : Vocabulary} {source word t : Text}

lemma find?_of_create {name : Text} {kind : FunctionKind}
    (h : functions.create word = .ok (some (name, kind))) :
    functions.find? word = some (.calls kind) := by
  unfold FunctionRegistry.create at h
  split at h
  · cases h
  · cases h
  · rename_i hfind
    cases h
    exact hfind

lemma isSeparator_of_isOperatorChar {c : Char} (hc : Symbol.isOperatorChar c = true) :
    isSeparator c = true := by
  obtain ⟨s, hs⟩ := Option.isSome_iff_exists.1 hc
  obtain ⟨hoperator, hchar⟩ : s.isOperand = false ∧ s.char = c := by
    simpa using List.find?_some hs
  rw [← hchar]
  cases s <;> first | exact isSeparator_of_mem (by decide) | cases hoperator

lemma isIn_of_readOperand {after rest : Text} {o : Operand} (hword : V.Writes word)
    (hafter : V.Writes after) (h : readOperand functions source word after = .ok (o, rest)) :
    o.IsIn functions V ∧ V.Writes rest := by
  -- A word is an operand as it is; of a call, the arguments are cut out at parentheses and commas.
  unfold readOperand at h
  split at h
  · cases h
  · cases h
    exact ⟨.value hword, hafter⟩
  · rename_i hcreate
    split at h
    · split at h
      · rename_i inner _ arguments after' hclosing
        cases h
        have hinner : V.Writes inner :=
          ((writes_cons (by decide)).1 hafter).2
        rw [← append_of_closing? hclosing] at hinner
        obtain ⟨harguments, -, hrest⟩ := V.separate (by decide) hinner
        rw [← join_splitArguments arguments] at harguments
        exact ⟨.call hword (find?_of_create hcreate)
          (writes_of_join (by decide) harguments), hrest⟩
      · cases h
    · cases h

lemma ne_callDepth_of_readOperand {after : Text} {e : Failure}
    (h : readOperand functions source word after = .error e) : e ≠ .callDepth := by
  unfold readOperand at h
  split at h
  · cases h
    exact Failure.noConfusion
  · cases h
  · split at h
    · split at h
      · cases h
      · cases h
        exact Failure.noConfusion
    · cases h
      exact Failure.noConfusion

lemma writes_splitWord (ht : V.Writes t) : V.Writes (splitWord t).1 ∧ V.Writes (splitWord t).2 :=
  writes_span (fun c hc => isSeparator_of_isOperatorChar (by simpa using hc)) ht

lemma isIn_of_tokensOf {tokens : List Token} (h : tokensOf functions source t = .ok tokens)
    (ht : V.Writes t) {o : Operand} (ho : .operand o ∈ tokens) : o.IsIn functions V := by
  fun_induction tokensOf functions source t generalizing tokens with
  | case1 =>
    cases h
    cases ho
  | case2 c rest s hoperator =>
    rename_i htokens ih
    cases h
    have hc : isSeparator c = true :=
      isSeparator_of_isOperatorChar (Option.isSome_iff_exists.2 ⟨s, hoperator⟩)
    exact ih htokens ((writes_cons hc).1 ht).2 (by simpa using ho)
  | case4 c rest =>
    rename_i htokens ih
    cases h
    exact ih htokens (writes_splitWord ht).2 (by simpa using ho)
  | case6 c rest =>
    rename_i hread _ htokens ih
    cases h
    obtain ⟨hword, hrest⟩ := writes_splitWord ht
    obtain ⟨hfirst, hafter⟩ := isIn_of_readOperand hword hrest hread
    rcases List.mem_cons.1 ho with heq | ho
    · cases heq
      exact hfirst
    · exact ih htokens hafter ho
  | _ => cases h

lemma ne_callDepth_of_tokensOf {e : Failure} (h : tokensOf functions source t = .error e) :
    e ≠ .callDepth := by
  fun_induction tokensOf functions source t with grind [ne_callDepth_of_readOperand]

/-- The operands of a compiled condition. -/
lemma isIn_of_compile {condition : Option Text} {p : Program}
    (h : Program.compile functions condition = .ok p)
    (hcondition : V.Writes (condition.getD ['f', 'a', 'l', 's', 'e'])) {o : Operand}
    (ho : o ∈ p.operands) : o.IsIn functions V := by
  simp only [Program.compile] at h
  split at h
  · rename_i tokens htokens
    cases h
    obtain ⟨token, htoken, hoperand⟩ := List.mem_filterMap.1 ho
    have hsource : V.Writes (Text.withoutBlanks (condition.getD ['f', 'a', 'l', 's', 'e'])) :=
      writes_filter (fun c hc => isSeparator_of_isBlank (by simpa using hc)) hcondition
    cases token with
    | operand o' =>
      cases hoperand
      exact isIn_of_tokensOf htokens hsource htoken
    | operator s => cases hoperand
    | keyword b => cases hoperand
  · cases h

lemma ne_callDepth_of_compile {condition : Option Text} {e : Failure}
    (h : Program.compile functions condition = .error e) : e ≠ .callDepth := by
  simp only [Program.compile] at h
  split at h
  · cases h
  · rename_i htokens
    cases h
    exact ne_callDepth_of_tokensOf htokens

end Operands

/-! ## Runs -/

/-- A conduct is kept to when operands with a property are asked for their truth or their text.
What operators leave has the property. -/
structure Covers (K : Conduct) (covered : Operand → Prop) : Prop where
  literal : ∀ b, covered (.literal b)
  computed : ∀ t, covered (.computed t)
  truth : ∀ o, covered o → K.holds (fun _ => True) (o.truth Resolver.ofHost)
  text : ∀ o, covered o → K.holds (fun _ => True) (o.text Resolver.ofHost)

/-- A state of a run in which all operands have a property. -/
structure Machine.All (covered : Operand → Prop) (m : Machine) : Prop where
  stack : ∀ o ∈ m.stack, covered o
  waiting : ∀ o ∈ m.waiting, covered o

/-- An operator leaves an operand on the stack. -/
lemma Machine.All.push {covered : Operand → Prop} {m : Machine} (hm : m.All covered) {o : Operand}
    (ho : covered o) {stack : List Operand} (hstack : ∀ o ∈ stack, covered o) :
    Machine.All covered { m with stack := o :: stack } :=
  ⟨List.forall_mem_cons.2 ⟨ho, hstack⟩, hm.waiting⟩

section Steps

variable {K : Conduct} {covered : Operand → Prop} (p : Program)

lemma holds_stop (fault : EvaluationFault) {yields : α → Prop} :
    K.holds yields (p.stop fault : Script α) := K.throw Failure.noConfusion

lemma holds_integerOf (t : Text) : K.holds (fun _ => True) (p.integerOf t) := by
  unfold Program.integerOf
  split
  · exact K.pure trivial
  · exact holds_stop p _

lemma holds_compare (subject pattern : Text) :
    K.holds (fun _ => True) (p.compare subject pattern) := by
  unfold Program.compare
  split
  · exact K.pure trivial
  · exact holds_stop p _
  · exact K.throw Failure.noConfusion

lemma holds_quotient (left right : Int) : K.holds (fun _ => True) (p.quotient left right) := by
  unfold Program.quotient
  split
  · exact holds_stop p _
  · exact K.pure trivial

lemma holds_remainder (left right : Int) : K.holds (fun _ => True) (p.remainder left right) := by
  unfold Program.remainder
  split
  · exact holds_stop p _
  · exact K.pure trivial

lemma holds_pop {stack : List Operand} (h : ∀ o ∈ stack, covered o) :
    K.holds (fun (o, rest) => covered o ∧ ∀ o ∈ rest, covered o) (p.pop stack) := by
  cases stack with
  | nil => exact holds_stop p _
  | cons o stack => exact K.pure (List.forall_mem_cons.1 h)

namespace Covers

variable (hK : Covers K covered)

include hK

lemma popTruth {stack : List Operand} (h : ∀ o ∈ stack, covered o) :
    K.holds (fun r => ∀ o ∈ r.2, covered o) (p.popTruth Resolver.ofHost stack) :=
  K.bind (holds_pop p h) fun (o, _) ⟨ho, hrest⟩ =>
    K.bind (hK.truth o ho) fun _ _ => K.pure hrest

lemma popText {stack : List Operand} (h : ∀ o ∈ stack, covered o) :
    K.holds (fun r => ∀ o ∈ r.2, covered o) (p.popText Resolver.ofHost stack) :=
  K.bind (holds_pop p h) fun (o, _) ⟨ho, hrest⟩ =>
    K.bind (hK.text o ho) fun _ _ => K.pure hrest

lemma popInteger {stack : List Operand} (h : ∀ o ∈ stack, covered o) :
    K.holds (fun r => ∀ o ∈ r.2, covered o) (p.popInteger Resolver.ofHost stack) :=
  K.bind (hK.popText p h) fun _ hrest =>
    K.bind (holds_integerOf p _) fun _ _ => K.pure hrest

/-- One instruction. -/
lemma step {m : Machine} (hm : m.All covered) (s : Symbol) :
    K.holds (Machine.All covered) (p.step Resolver.ofHost m s) := by
  -- What an instruction takes was on the stack, and what it puts there is a literal or computed.
  cases s with
  | yes => exact K.pure (hm.push (hK.literal true) hm.stack)
  | no => exact K.pure (hm.push (hK.literal false) hm.stack)
  | operand =>
    simp only [Program.step]
    cases hw : m.waiting with
    | nil => exact holds_stop p _
    | cons o waiting =>
      obtain ⟨ho, hwaiting⟩ := List.forall_mem_cons.1 (hw ▸ hm.waiting)
      exact K.pure ⟨List.forall_mem_cons.2 ⟨ho, hm.stack⟩, hwaiting⟩
  | leftParen => exact K.pure hm
  | rightParen => exact K.pure hm
  | equals =>
    exact K.bind (hK.popText p hm.stack) fun _ h => K.bind (hK.popText p h) fun _ h =>
      K.bind (holds_compare p _ _) fun b _ => K.pure (hm.push (hK.literal b) h)
  | less =>
    exact K.bind (hK.popInteger p hm.stack) fun _ h =>
      K.bind (hK.popInteger p h) fun _ h => K.pure (hm.push (hK.literal _) h)
  | more =>
    exact K.bind (hK.popInteger p hm.stack) fun _ h =>
      K.bind (hK.popInteger p h) fun _ h => K.pure (hm.push (hK.literal _) h)
  | modulus =>
    exact K.bind (hK.popInteger p hm.stack) fun _ h =>
      K.bind (hK.popInteger p h) fun _ h =>
        K.bind (holds_remainder p _ _) fun n _ => K.pure (hm.push (hK.computed _) h)
  | divide =>
    exact K.bind (hK.popInteger p hm.stack) fun _ h =>
      K.bind (hK.popInteger p h) fun _ h =>
        K.bind (holds_quotient p _ _) fun n _ => K.pure (hm.push (hK.computed _) h)
  | either =>
    exact K.bind (hK.popTruth p hm.stack) fun _ h =>
      K.bind (hK.popTruth p h) fun _ h => K.pure (hm.push (hK.literal _) h)
  | both =>
    exact K.bind (hK.popTruth p hm.stack) fun _ h =>
      K.bind (hK.popTruth p h) fun _ h => K.pure (hm.push (hK.literal _) h)
  | negate =>
    exact K.bind (hK.popTruth p hm.stack) fun _ h => K.pure (hm.push (hK.literal _) h)

lemma steps (code : List Symbol) {m : Machine} (hm : m.All covered) :
    K.holds (Machine.All covered) (p.steps Resolver.ofHost code m) := by
  induction code generalizing m with
  | nil => exact K.pure hm
  | cons s code ih => exact K.bind (hK.step p hm s) fun m hm => ih hm

lemma finish {m : Machine} (hm : m.All covered) :
    K.holds (fun _ => True) (p.finish Resolver.ofHost m) := by
  refine K.bind (hK.popTruth p hm.stack) fun (b, stack) _ => ?_
  dsimp only
  split
  · exact holds_stop p _
  · exact K.pure trivial

/-- A program keeps to the conduct of its operands. -/
lemma evaluate {p : Program} (hp : ∀ o ∈ p.operands, covered o) :
    K.holds (fun _ => True) (p.evaluate Resolver.ofHost) := by
  have hstart : (Machine.start p).All covered :=
    ⟨List.forall_mem_singleton.2 (hK.literal false), hp⟩
  exact K.bind (hK.steps p _ hstart) fun m hm => hK.finish p hm

/-- **A condition keeps to the conduct of its operands**, whether it compiles or not. -/
theorem evaluate_condition {functions : FunctionRegistry} {V : Vocabulary}
    {condition : Option Text} (hcondition : V.Writes (condition.getD ['f', 'a', 'l', 's', 'e']))
    (h : ∀ o : Operand, o.IsIn functions V → covered o) :
    K.holds (fun _ => True) (Condition.evaluate functions Resolver.ofHost condition) := by
  have hcompile : K.holds (fun p => ∀ o ∈ p.operands, covered o)
      (Script.ofExcept (Program.compile functions condition)) := by
    cases hp : Program.compile functions condition with
    | ok p => exact K.pure fun o ho => h o (isIn_of_compile hp hcondition ho)
    | error e => exact K.throw (ne_callDepth_of_compile hp)
  exact K.bind hcompile fun _ hp => hK.evaluate hp

end Covers

end Steps

end Stencil.Condition
