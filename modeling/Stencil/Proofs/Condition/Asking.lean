import Stencil.Condition.Builtin
import Stencil.Proofs.Condition.Running

/-!
# What conditions ask for

A condition is evaluated by a script, and all that the script could ask for is decided by its
functions.  If these only ask for the values of texts, as the built-in ones do
(`modest_of_builtin`), then so does the condition, whatever it is made of.  The script fails in ways
of its own, for a fault of the condition or of an argument; that calls are nested too deeply is
never one of these, and comes from an answer if it comes at all.

The operands of a condition are values and calls of its functions, and asking for nothing else is
their conduct (`covers_modest`).  The main statement is `plain_evaluate`.
-/

namespace Stencil.Condition

open Script (Behaves)

variable {α β : Type}

/-- A request for the value of a text. -/
def AsksValue (q : Request) : Prop := ∃ v, q = .resolve v

/-- A failure that has nothing to do with the depth of calls. -/
def IsOwn (e : Failure) : Prop := e ≠ .callDepth

/-- A script that only asks for the values of texts, and comes to values with a property. -/
abbrev Modest (yields : α → Prop) : Script α → Prop := Behaves AsksValue IsOwn yields

/-- A script that only asks for the values of texts. -/
abbrev Plain : Script α → Prop := Modest fun _ => True

lemma plain_resolve (raw : Text) : Plain (Resolver.ofHost.resolve raw) := .request ⟨_, rfl⟩

/-! ## Functions -/

/-- A kind of function whose calls only ask for the values of texts. -/
structure FunctionKind.Modest (kind : FunctionKind) : Prop where
  truth : ∀ arguments, Plain (kind.truth Resolver.ofHost arguments)
  value : ∀ arguments, Plain (kind.value Resolver.ofHost arguments)

lemma plain_argument (arguments : List Text) (place : Nat) :
    Plain (argument Resolver.ofHost arguments place) := by
  unfold argument
  split
  · exact .pure trivial
  · split
    · exact .pure trivial
    · exact plain_resolve _

lemma plain_textArgument (arguments : List Text) (place : Nat) :
    Plain (textArgument Resolver.ofHost arguments place) :=
  (plain_argument arguments place).map fun _ _ => trivial

lemma plain_pairOf (raw : Text) : Plain (pairOf raw) := by
  unfold pairOf
  split
  · exact .pure trivial
  · exact .throw (by simp [IsOwn])

lemma plain_isOption (t : Text) (options : List Text) :
    Plain (isOption Resolver.ofHost t options) := by
  induction options with
  | nil => exact .pure trivial
  | cons raw options ih =>
    refine (plain_resolve raw).bind fun value _ => ?_
    split
    · exact .pure trivial
    · exact ih

/-- A function that says nothing of its value has its truth for it. -/
lemma FunctionKind.Modest.of_truth {kind : FunctionKind}
    (hvalue : kind.value = fun resolver arguments => Value.bool <$> kind.truth resolver arguments)
    (h : ∀ arguments, Plain (kind.truth Resolver.ofHost arguments)) : kind.Modest where
  truth := h
  value arguments := by
    rw [hvalue]
    exact (h arguments).map fun _ _ => trivial

/-- The built-in functions resolve texts and do no more. -/
lemma modest_of_builtin {name : Text} {kind : FunctionKind}
    (h : builtinFunctions.find? name = some (.calls kind)) : kind.Modest := by
  have htwo : ∀ (f : Text → Text → Bool) arguments, Plain (do
      let a ← textArgument Resolver.ofHost arguments 0
      let b ← textArgument Resolver.ofHost arguments 1
      return f a b) := fun f arguments =>
    (plain_textArgument _ _).bind fun a _ => (plain_textArgument _ _).bind fun b _ => .pure trivial
  have hmem := Table.mem_of_find? h
  simp only [builtinFunctions, List.map_cons, List.map_nil, List.mem_cons, List.not_mem_nil,
    or_false, Prod.mk.injEq, Factory.calls.injEq] at hmem
  -- The functions in the order of the registry; the second, the fourth and the fifth compare two
  -- texts.
  rcases hmem with ⟨-, rfl⟩ | ⟨-, rfl⟩ | ⟨-, rfl⟩ | ⟨-, rfl⟩ | ⟨-, rfl⟩ | ⟨-, rfl⟩ | ⟨-, rfl⟩
  · exact .of_truth rfl fun arguments => (plain_argument _ _).map fun _ _ => trivial
  · exact .of_truth rfl (htwo _)
  · exact .of_truth rfl fun arguments => (plain_argument _ _).bind fun value _ =>
      (plain_textArgument _ _).bind fun part _ => .pure trivial
  · exact .of_truth rfl (htwo fun t start => start.isPrefixOf t)
  · exact .of_truth rfl (htwo fun t ending => ending.isSuffixOf t)
  · refine .of_truth rfl fun arguments => ?_
    unfold oneOfFunction
    dsimp only
    split
    · exact (plain_textArgument _ _).bind fun t _ => (plain_pairOf _).bind fun pair _ =>
        plain_isOption _ _
    · exact .pure trivial
  · refine .of_truth rfl fun arguments => (plain_textArgument _ _).bind fun name _ => ?_
    split
    · exact .pure trivial
    · exact (plain_resolve _).bind fun value _ => .pure trivial

/-! ## Operands -/

/-- An operand that only asks for the values of texts. -/
def Operand.Modest : Operand → Prop
  | .call c => c.kind.Modest
  | _ => True

lemma Operand.Modest.truth {o : Operand} (h : o.Modest) : Plain (o.truth Resolver.ofHost) := by
  cases o with
  | literal b => exact .pure trivial
  | value raw => exact (plain_resolve raw).map fun _ _ => trivial
  | computed t => exact .pure trivial
  | call c => exact FunctionKind.Modest.truth h c.arguments

lemma Operand.Modest.text {o : Operand} (h : o.Modest) : Plain (o.text Resolver.ofHost) := by
  cases o with
  | literal b => exact .pure trivial
  | value raw => exact (plain_resolve raw).map fun _ _ => trivial
  | computed t => exact .pure trivial
  | call c => exact (FunctionKind.Modest.value h c.arguments).map fun _ _ => trivial

/-! ## Evaluation -/

/-- The conduct of scripts that only ask for the values of texts. -/
def modestConduct : Script.Conduct where
  holds := Modest
  pure := .pure
  throw h := .throw h
  bind := .bind

lemma covers_modest : Covers modestConduct Operand.Modest where
  literal _ := trivial
  computed _ := trivial
  truth _ := Operand.Modest.truth
  text _ := Operand.Modest.text

/-- **What conditions ask for.**  A condition whose functions only ask for the values of texts, as
the built-in ones do, asks for nothing else either, whatever it is made of; and unless an answer
fails for the depth of calls, nor does the condition. -/
theorem plain_evaluate {functions : FunctionRegistry}
    (hf : ∀ name kind, functions.find? name = some (.calls kind) → kind.Modest)
    (condition : Option Text) : Plain (evaluate functions Resolver.ofHost condition) := by
  refine covers_modest.evaluate_condition (V := .ofLetters fun _ => True) (fun _ _ => trivial)
    fun o ho => ?_
  cases ho with
  | value hraw => trivial
  | call hname hkind harguments => exact hf _ _ hkind

end Stencil.Condition
