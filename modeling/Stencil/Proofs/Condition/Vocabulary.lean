import Stencil.Condition.Builtin
import Stencil.Proofs.Condition.Running
import Stencil.Proofs.Pair.Grammar
import Stencil.Proofs.Script.Vocabulary

/-!
# Conditions within a vocabulary

A condition resolves pieces of itself, and what its functions make of these.  Of the built-in
functions two bring in texts of their own: `oneOf` takes a list of options from a pair, whose texts
may be written with escapes, and `hasParam` writes a token around the name of a parameter.  Where
these are in the vocabulary (`Vocabulary.TakesFunction`), the functions stay within it
(`stays_of_builtin`), and so does the condition (`stays_evaluate`).
-/

namespace Stencil

open Vocabulary (writes_separated writes_cons)

variable {V : Vocabulary}

/-! ## Pairs -/

/-- A vocabulary that has what is left of its texts without escapes. -/
def Vocabulary.Unescapes (V : Vocabulary) : Prop :=
  ∀ t, V.Writes t → V.Writes (Input.unescape t)

/-- A vocabulary that has what the built-in function of a name brings in. -/
structure Vocabulary.TakesFunction (V : Vocabulary) (name : Text) : Prop where
  oneOf : name = "oneOf".toList → V.Unescapes
  hasParam : name = "hasParam".toList → V.Writes "$templateParam\x7b\x7d".toList

namespace Input

/-- The texts of quoted items, wherever these stand. -/
lemma Items.writes (hV : V.Unescapes) {items : List Text} {t : Text} (h : Items items t)
    {before after : Text} (ht : V.Writes (before ++ (t ++ after))) :
    ∀ item ∈ items, V.Writes item := by
  induction h generalizing before with
  | nil => exact List.forall_mem_nil _
  | @cons quote item gap t items hq hitem hgap _ ih =>
    have hquote := isSeparator_of_isQuote hq
    have hparts : before ++ (quote :: item ++ quote :: (gap ++ t) ++ after) =
        before ++ quote :: (item ++ quote :: (gap ++ (t ++ after))) := by simp
    obtain ⟨hitem, hrest⟩ := Vocabulary.writes_between hquote hquote (hparts ▸ ht)
    exact List.forall_mem_cons.2 ⟨hV item hitem, ih hrest⟩

end Input

namespace Condition

lemma optionsOf_list (items : List Text) : optionsOf (.list (items.map .str)) = items := by
  simp [optionsOf, Function.comp_def, Value.display]

lemma optionsOf_tuple (items : List Text) : optionsOf (.tuple (items.map .str)) = items := by
  simp [optionsOf, Function.comp_def, Value.display]

/-- The options that a pair names are in the vocabulary of its text. -/
lemma writes_options (hV : V.Unescapes) {targets : List Text} {p : Pair} {t : Text}
    (h : Input.PairText targets p t) {after : Text} (ht : V.Writes (t ++ after)) :
    ∀ raw ∈ optionsOf p.value, V.Writes raw := by
  cases h with
  | @intro name gap gap' t sign _ _ _ _ hvalue =>
    obtain ⟨before, hbefore⟩ : ∃ before, name ++ (gap ++ sign :: (gap' ++ t)) ++ after =
        before ++ (t ++ after) := ⟨name ++ (gap ++ sign :: gap'), by simp⟩
    rw [hbefore] at ht
    -- A value is a text, or the items of a list in brackets or parentheses; each stands between
    -- quotes.
    cases hvalue with
    | @quoted quote value hq hvalue =>
      have hquote := isSeparator_of_isQuote hq
      rw [List.cons_append, List.cons_append, List.append_assoc] at ht
      have hvalue := (Vocabulary.writes_between hquote hquote ht).1
      exact List.forall_mem_singleton.2 (hV value hvalue)
    | @list gap t items hgap hitems =>
      have hparts : before ++ ('{' :: (gap ++ (t ++ ['}'])) ++ after) =
          (before ++ '{' :: gap) ++ (t ++ '}' :: after) := by simp
      rw [optionsOf_list]
      exact hitems.writes hV (hparts ▸ ht)
    | @array gap t items hgap hitems =>
      have hparts : before ++ ('[' :: (gap ++ (t ++ [']'])) ++ after) =
          (before ++ '[' :: gap) ++ (t ++ ']' :: after) := by simp
      rw [optionsOf_tuple]
      exact hitems.writes hV (hparts ▸ ht)
    | @mapping gap target gap' key hgap htoken htarget hgap' hkey =>
      have hparts : before ++ ('>' :: (gap ++ '$' :: (target ++ (gap' ++ '{' :: (key ++ ['}'])))) ++
          after) = (before ++ '>' :: (gap ++ '$' :: (target ++ gap'))) ++
            '{' :: (key ++ '}' :: after) := by simp
      have hkey := (Vocabulary.writes_between (by decide)
        (by decide) (hparts ▸ ht)).1
      exact List.forall_mem_singleton.2 (hV key hkey)

lemma stays_pairOf (hV : V.Unescapes) {raw : Text} (hraw : V.Writes raw) :
    V.Stays (fun p => ∀ raw ∈ optionsOf p.value, V.Writes raw) (pairOf raw) := by
  unfold pairOf
  split
  · rename_i p j hread
    have hfresh : Input.readQuotedPair (Input.fresh Input.standardTargets raw) = .ok p j := hread
    obtain ⟨u, rest, hu, rfl, -⟩ := Input.readQuotedPair_fresh_eq_ok_iff.1 hfresh
    exact .pure (writes_options hV hu hraw)
  · exact .throw _

/-! ## Arguments -/

lemma stays_resolve {raw : Text} (hraw : V.Writes raw) :
    V.Stays V.Holds (Resolver.ofHost.resolve raw) :=
  .request (q := .resolve (.str raw)) (.str hraw)

lemma writes_of_unquote? {raw t : Text} (h : unquote? raw = some t) (hraw : V.Writes raw) :
    V.Writes t := by
  unfold unquote? at h
  split at h
  · cases h
  · rename_i quote rest
    split at h
    · rename_i hquoted
      cases h
      have hquote := isSeparator_of_isQuote hquoted.1
      obtain ⟨t, rfl⟩ := List.getLast?_eq_some_iff.1 hquoted.2
      rw [List.dropLast_concat]
      exact (Vocabulary.writes_between (s := []) hquote hquote hraw).1
    · cases h

section Arguments

variable {arguments : List Text} (harguments : ∀ raw ∈ arguments, V.Writes raw)

include harguments

lemma stays_argument (place : Nat) :
    V.Stays V.Holds (argument Resolver.ofHost arguments place) := by
  unfold argument
  split
  · exact .pure Vocabulary.holds_none
  · rename_i raw hraw
    have hraw : V.Writes raw := harguments raw (List.mem_of_getElem? hraw)
    split
    · rename_i t ht
      exact .pure (.str (writes_of_unquote? ht hraw))
    · exact stays_resolve hraw

lemma stays_textArgument (place : Nat) :
    V.Stays V.Writes (textArgument Resolver.ofHost arguments place) :=
  (stays_argument harguments place).map fun _ hv => hv.text

lemma stays_twoTexts (f : Text → Text → Bool) :
    V.Stays (fun _ => True) (do
      let a ← textArgument Resolver.ofHost arguments 0
      let b ← textArgument Resolver.ofHost arguments 1
      return f a b) :=
  (stays_textArgument harguments 0).bind fun _ _ =>
    (stays_textArgument harguments 1).bind fun _ _ => .pure trivial

end Arguments

/-! ## Functions -/

lemma stays_isOption (t : Text) {options : List Text} (h : ∀ raw ∈ options, V.Writes raw) :
    V.Stays (fun _ => True) (isOption Resolver.ofHost t options) := by
  induction options with
  | nil => exact .pure trivial
  | cons raw options ih =>
    obtain ⟨hraw, hrest⟩ := List.forall_mem_cons.1 h
    refine (stays_resolve hraw).bind fun value _ => ?_
    split
    · exact .pure trivial
    · exact ih hrest

variable (V)

/-- A kind of function whose calls stay within the vocabulary. -/
structure FunctionKind.Stays (kind : FunctionKind) : Prop where
  truth : ∀ arguments, (∀ raw ∈ arguments, V.Writes raw) →
    V.Stays (fun _ => True) (kind.truth Resolver.ofHost arguments)
  value : ∀ arguments, (∀ raw ∈ arguments, V.Writes raw) →
    V.Stays (fun _ => True) (kind.value Resolver.ofHost arguments)

variable {V}

/-- A function that says nothing of its value has its truth for it. -/
lemma FunctionKind.Stays.of_truth {kind : FunctionKind}
    (hvalue : kind.value = fun resolver arguments => Value.bool <$> kind.truth resolver arguments)
    (h : ∀ arguments, (∀ raw ∈ arguments, V.Writes raw) →
      V.Stays (fun _ => True) (kind.truth Resolver.ofHost arguments)) : kind.Stays V where
  truth := h
  value arguments harguments := by
    rw [hvalue]
    exact (h arguments harguments).map fun _ _ => trivial

lemma stays_hasParam (hV : V.Writes "$templateParam\x7b\x7d".toList) {arguments : List Text}
    (h : ∀ raw ∈ arguments, V.Writes raw) :
    V.Stays (fun _ => True) (hasParamFunction.truth Resolver.ofHost arguments) := by
  obtain ⟨hkeyword, hopening, hclosing⟩ :=
    (writes_separated (s := "$templateParam".toList) (by decide)).1 hV
  refine (stays_textArgument h 0).bind fun name hname => ?_
  split
  · exact .pure trivial
  · refine (stays_resolve ?_).bind fun value _ => .pure trivial
    exact V.append (V.append (V.append hkeyword hopening) hname) hclosing

lemma stays_oneOf (hV : V.Unescapes) {arguments : List Text}
    (h : ∀ raw ∈ arguments, V.Writes raw) :
    V.Stays (fun _ => True) (oneOfFunction.truth Resolver.ofHost arguments) := by
  unfold oneOfFunction
  dsimp only
  split
  · rename_i second _
    exact (stays_textArgument h 0).bind fun t _ =>
      (stays_pairOf hV (h second (by simp))).bind fun pair hpair => stays_isOption t hpair
  · exact .pure trivial

/-- The built-in functions stay within every vocabulary that has what they bring in. -/
lemma stays_of_builtin {name : Text} {kind : FunctionKind}
    (h : builtinFunctions.find? name = some (.calls kind)) (hV : V.TakesFunction name) :
    kind.Stays V := by
  have hmem := Table.mem_of_find? h
  simp only [builtinFunctions, List.map_cons, List.map_nil, List.mem_cons, List.not_mem_nil,
    or_false, Prod.mk.injEq, Factory.calls.injEq] at hmem
  rcases hmem with ⟨-, rfl⟩ | ⟨-, rfl⟩ | ⟨-, rfl⟩ | ⟨-, rfl⟩ | ⟨-, rfl⟩ | ⟨hname, rfl⟩ | ⟨hname, rfl⟩
  · exact .of_truth rfl fun _ h => (stays_argument h 0).map fun _ _ => trivial
  · exact .of_truth rfl fun _ h => stays_twoTexts h _
  · exact .of_truth rfl fun _ h => (stays_argument h 0).bind fun _ _ =>
      (stays_textArgument h 1).bind fun _ _ => .pure trivial
  · exact .of_truth rfl fun _ h => stays_twoTexts h fun t start => start.isPrefixOf t
  · exact .of_truth rfl fun _ h => stays_twoTexts h fun t ending => ending.isSuffixOf t
  · exact .of_truth rfl fun _ h => stays_oneOf (hV.oneOf hname) h
  · exact .of_truth rfl fun _ h => stays_hasParam (hV.hasParam hname) h

/-! ## Conditions -/

variable (V)

/-- An operand that stays within the vocabulary. -/
def Operand.Stays : Operand → Prop
  | .value raw => V.Writes raw
  | .call c => c.kind.Stays V ∧ ∀ raw ∈ c.arguments, V.Writes raw
  | _ => True

variable {V}

lemma covers_stays : Covers V.conduct (Operand.Stays V) where
  literal _ := trivial
  computed _ := trivial
  truth o ho := by
    cases o with
    | literal b => exact .pure trivial
    | value raw => exact (stays_resolve ho).map fun _ _ => trivial
    | computed t => exact .pure trivial
    | call c => exact ho.1.truth _ ho.2
  text o ho := by
    cases o with
    | literal b => exact .pure trivial
    | value raw => exact (stays_resolve ho).map fun _ _ => trivial
    | computed t => exact .pure trivial
    | call c => exact (ho.1.value _ ho.2).map fun _ _ => trivial

/-- **Conditions stay within a vocabulary**, if the functions do that have their names in it. -/
theorem stays_evaluate {functions : FunctionRegistry}
    (hf : ∀ name kind, functions.find? name = some (.calls kind) → V.Writes name → kind.Stays V)
    {condition : Text} (hcondition : V.Writes condition) :
    V.Stays (fun _ => True) (evaluate functions Resolver.ofHost (some condition)) := by
  refine covers_stays.evaluate_condition (V := V) hcondition fun o ho => ?_
  cases ho with
  | value hraw => exact hraw
  | call hname hkind harguments => exact ⟨hf _ _ hkind hname, harguments⟩

end Condition

end Stencil
