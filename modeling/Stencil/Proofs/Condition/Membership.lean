import Stencil.Proofs.Condition.Quoting

/-!
# Membership in a list that is written out

The condition `oneOf('v',options=['a','b'])` is taken apart five times: whitespace is dropped, the
scanner finds the call and its end, the arguments are split, and the second one is read as a pair
with an array.  A text in quotes is the same to all of them if it has no quote of their kind, no
backslash and no whitespace (`IsOpaque`), whatever brackets, commas, operators and comment openings
are in it.  The main statement, `evaluate_membership`, is that the condition is membership in the
list.
-/

namespace Stencil.Condition

open Input (Items ValueText Trivia itemMargins standardTargets)

/-! ## The condition -/

/-- A text that stands for itself in single quotes. -/
structure IsOpaque (t : Text) : Prop where
  quote : '\'' ∉ t
  backslash : '\\' ∉ t
  blank : ∀ c ∈ t, Text.isBlank c = false

/-- A text in single quotes. -/
def quoted (t : Text) : Text := '\'' :: (t ++ ['\''])

/-- Texts in single quotes, with commas between them. -/
def quotedList (options : List Text) : Text := Text.join [','] (options.map quoted)

/-- The argument `options=['a','b']`. -/
def optionsArgument (options : List Text) : Text :=
  "options".toList ++ '=' :: '[' :: (quotedList options ++ [']'])

/-- The condition `oneOf('v',options=['a','b'])`. -/
def membership (v : Text) (options : List Text) : Text :=
  calling "oneOf".toList (Text.join [','] [quoted v, optionsArgument options])

section Scans

variable {v : Text} {options : List Text}

lemma quotedList_cons (option : Text) {rest : List Text} (hrest : rest ≠ []) :
    quotedList (option :: rest) = quoted option ++ ',' :: quotedList rest := by
  obtain ⟨next, rest, rfl⟩ := List.exists_cons_of_ne_nil hrest
  simp [quotedList, join_cons_cons]

lemma forall_mem_quoted {P : Char → Prop} (hquote : P '\'') (hv : ∀ c ∈ v, P c) :
    ∀ c ∈ quoted v, P c := by
  rw [quoted, List.forall_mem_cons, List.forall_mem_append, List.forall_mem_singleton]
  exact ⟨hquote, hv, hquote⟩

lemma forall_mem_quotedList {P : Char → Prop} (hquote : P '\'') (hcomma : P ',')
    (hoptions : ∀ option ∈ options, ∀ c ∈ option, P c) : ∀ c ∈ quotedList options, P c := by
  induction options with
  | nil => exact List.forall_mem_nil _
  | cons option rest ih =>
    obtain ⟨hoption, hrest⟩ := List.forall_mem_cons.1 hoptions
    by_cases hnil : rest = []
    · subst hnil
      exact forall_mem_quoted hquote hoption
    · rw [quotedList_cons option hnil, List.forall_mem_append, List.forall_mem_cons]
      exact ⟨forall_mem_quoted hquote hoption, hcomma, ih hrest⟩

lemma isBlank_membership (hv : IsOpaque v) (hoptions : ∀ option ∈ options, IsOpaque option) :
    ∀ c ∈ membership v options, Text.isBlank c = false := by
  have hquote : Text.isBlank '\'' = false := rfl
  have hcomma : Text.isBlank ',' = false := rfl
  have hfunction : ∀ c ∈ "oneOf".toList, Text.isBlank c = false := Text.eq_false_of_all rfl
  have hname : ∀ c ∈ "options".toList, Text.isBlank c = false := Text.eq_false_of_all rfl
  have hlist : ∀ c ∈ '=' :: '[' :: (quotedList options ++ [']']), Text.isBlank c = false := by
    rw [List.forall_mem_cons, List.forall_mem_cons, List.forall_mem_append]
    exact ⟨rfl, rfl, forall_mem_quotedList hquote hcomma
      fun option hoption => (hoptions option hoption).blank, List.forall_mem_singleton.2 rfl⟩
  have hargument := List.forall_mem_append.2 ⟨hname, hlist⟩
  have hvalue : ∀ c ∈ quoted v ++ [','], Text.isBlank c = false :=
    List.forall_mem_append.2 ⟨forall_mem_quoted hquote hv.blank, List.forall_mem_singleton.2 hcomma⟩
  have harguments := List.forall_mem_append.2 ⟨hvalue, hargument⟩
  have hclosing : Text.isBlank ')' = false := rfl
  have hcall := List.forall_mem_append.2 ⟨harguments, List.forall_mem_singleton.2 hclosing⟩
  exact List.forall_mem_append.2 ⟨hfunction, List.forall_mem_cons.2 ⟨rfl, hcall⟩⟩

/-! ## The scans -/

/-- Texts in quotes are nested in any brackets. -/
lemma nested_quoted {commas : Bool} (hv : '\'' ∉ v) : Nested commas (quoted v) :=
  .quoted (.inl rfl) hv .nil

lemma nested_quotedList (hoptions : ∀ option ∈ options, '\'' ∉ option) :
    Nested true (quotedList options) := by
  induction options with
  | nil => exact .nil
  | cons option rest ih =>
    obtain ⟨hoption, hrest⟩ := List.forall_mem_cons.1 hoptions
    by_cases hnil : rest = []
    · subst hnil
      exact nested_quoted hoption
    · rw [quotedList_cons option hnil]
      have hcomma : Nested true (',' :: quotedList rest) := .plain (by decide) (by simp) (ih hrest)
      simpa [quoted] using Nested.quoted (.inl rfl) hoption hcomma

lemma Nested.append_plain {commas : Bool} {s t : Text} (hs : ∀ c ∈ s, IsPlain c)
    (ht : Nested commas t) : Nested commas (s ++ t) := by
  induction s with
  | nil => exact ht
  | cons c s ih =>
    obtain ⟨⟨hc, hcomma⟩, hs⟩ := List.forall_mem_cons.1 hs
    exact .plain hc (fun h => absurd h hcomma) (ih hs)

lemma token_options : Input.Token ['_', '.'] "options".toList := List.all_eq_true.1 rfl

lemma isArgument_optionsArgument (hoptions : ∀ option ∈ options, '\'' ∉ option) :
    IsArgument (optionsArgument options) := by
  have hlist : IsArgument ('[' :: (quotedList options ++ [']'])) :=
    .bracketed (by decide) (nested_quotedList hoptions) .nil
  have hsign : IsArgument ('=' :: '[' :: (quotedList options ++ [']'])) :=
    .plain (by decide) (by decide) hlist
  exact hsign.append_plain fun c hc => isPlain_of_tokenChar (token_options c hc)

/-! ## The pair -/

lemma items_quotedList (hoptions : ∀ option ∈ options, IsOpaque option) :
    Items options (quotedList options) := by
  induction options with
  | nil => exact .nil
  | cons option rest ih =>
    obtain ⟨hoption, hrest⟩ := List.forall_mem_cons.1 hoptions
    have hitem : ∀ {gap t : Text}, Trivia itemMargins gap → Items rest t →
        Items (option :: rest) (quoted option ++ (gap ++ t)) := by
      intro gap t hgap ht
      have hcons := Items.cons rfl (Input.precedes_of_notMem hoption.backslash hoption.quote) hgap ht
      rw [Input.unescape_eq_self hoption.backslash] at hcons
      simpa [quoted] using hcons
    by_cases hnil : rest = []
    · subst hnil
      have hlast : quotedList [option] = quoted option := rfl
      simpa [hlast] using hitem .nil .nil
    · rw [quotedList_cons option hnil]
      exact hitem (.blank (by decide) .nil) (ih hrest)

lemma pairOf_optionsArgument (hoptions : ∀ option ∈ options, IsOpaque option) :
    pairOf (optionsArgument options) =
      pure { name := "options".toList, value := .tuple (options.map .str) } := by
  have hvalue : ValueText standardTargets "options".toList _ _ :=
    .array .nil (items_quotedList hoptions)
  have hpair := Input.PairText.intro token_options .nil (.inl rfl) .nil hvalue
  exact pairOf_eq_pure_iff.2 ⟨_, Input.readQuotedPair_fresh_eq_ok_iff.2
    ⟨_, [], hpair, (List.append_nil _).symm, rfl⟩⟩

end Scans

/-! ## Evaluation -/

/-- Without a resolver an option is its own value. -/
lemma isOption_none (v : Text) (options : List Text) :
    isOption none v options = pure (decide (v ∈ options)) := by
  induction options with
  | nil => rfl
  | cons option rest ih =>
    have hresolve : Resolver.resolve none option = pure (.str option) := rfl
    rw [isOption, hresolve, pure_bind, ih, Value.text_str]
    by_cases h : v = option <;> simp [h]

lemma unquote?_quoted (v : Text) : unquote? (quoted v) = some v := by
  simp [unquote?, quoted, Text.isQuote]

/-- A program of one operand comes to the truth of the operand. -/
lemma evaluate_operand (source : Text) (o : Operand) (resolver : Resolver) :
    Program.evaluate { source, code := [.operand], operands := [o] } resolver =
      o.truth resolver := by
  simp [Program.evaluate, Machine.start, Program.steps, Program.step, Program.finish_single]

lemma truth_oneOf (v : Text) {options : List Text} (hoptions : ∀ option ∈ options, IsOpaque option) :
    oneOfFunction.truth none [quoted v, optionsArgument options] = pure (decide (v ∈ options)) := by
  have htext : textArgument none [quoted v, optionsArgument options] 0 = pure v := by
    simp [textArgument, argument, unquote?_quoted]
  have hnamed : optionsOf (.tuple (options.map .str)) = options := by
    have hdisplay : Value.display ∘ Value.str = id := rfl
    rw [optionsOf, List.map_map, hdisplay, List.map_id]
  simp only [oneOfFunction, htext, pairOf_optionsArgument hoptions, pure_bind, hnamed,
    isOption_none]

/-- **`oneOf` is membership in the list that is written out.**  Whatever the texts are that stand in
the quotes, as long as they have no quote of the kind, no backslash and no whitespace, the condition
is true if and only if the first one is among the others. -/
theorem evaluate_membership (v : Text) (options : List Text)
    (htexts : ∀ t ∈ v :: options, IsOpaque t) :
    evaluate builtinFunctions none (some (membership v options)) = pure (decide (v ∈ options)) := by
  obtain ⟨hv, hoptions⟩ := List.forall_mem_cons.1 htexts
  have harguments : ∀ a ∈ [quoted v, optionsArgument options], IsArgument a :=
    List.forall_mem_cons.2 ⟨nested_quoted hv.quote, List.forall_mem_singleton.2
      (isArgument_optionsArgument fun option hoption => (hoptions option hoption).quote)⟩
  have hsplit := splitArguments_join harguments (by simp)
  have hcreate : builtinFunctions.create "oneOf".toList =
      .ok (some ("oneOf".toList, oneOfFunction)) := rfl
  have hcompile := compile_calling hcreate (by decide) rfl
    (Text.withoutBlanks_eq_self (isBlank_membership hv hoptions)) (closed_join harguments)
  rw [hsplit] at hcompile
  have hrun : evaluate builtinFunctions none (some (membership v options)) =
      (Operand.call { name := "oneOf".toList, kind := oneOfFunction,
                      arguments := [quoted v, optionsArgument options] }).truth none := by
    rw [evaluate, membership, hcompile]
    exact evaluate_operand _ _ _
  rw [hrun]
  exact truth_oneOf v hoptions

/-- The text `),/*"` is among `(` and itself, and not in an empty list. -/
theorem evaluate_membership_bracketed :
    (∀ t ∈ ["),/*\"".toList, ['('], "),/*\"".toList], IsOpaque t) ∧
      evaluate builtinFunctions none
        (some "oneOf('),/*\"',options=['(','),/*\"'])".toList) = pure true ∧
      evaluate builtinFunctions none (some "oneOf('),/*\"',options=[])".toList) = pure false := by
  have htexts : ∀ t ∈ ["),/*\"".toList, ['('], "),/*\"".toList], IsOpaque t := by
    intro t ht
    simp only [List.mem_cons, List.not_mem_nil, or_false] at ht
    rcases ht with rfl | rfl | rfl
    · exact ⟨by decide, by decide, Text.eq_false_of_all rfl⟩
    · exact ⟨by decide, by decide, Text.eq_false_of_all rfl⟩
    · exact ⟨by decide, by decide, Text.eq_false_of_all rfl⟩
  have htext : membership "),/*\"".toList [['('], "),/*\"".toList] =
      "oneOf('),/*\"',options=['(','),/*\"'])".toList := rfl
  have hempty : membership "),/*\"".toList [] = "oneOf('),/*\"',options=[])".toList := rfl
  refine ⟨htexts, ?_, ?_⟩
  · rw [← htext, evaluate_membership _ _ htexts]
    rfl
  · have hlone : ∀ t ∈ ["),/*\"".toList], IsOpaque t :=
      List.forall_mem_singleton.2 (htexts _ List.mem_cons_self)
    rw [← hempty, evaluate_membership _ _ hlone]
    rfl

end Stencil.Condition
