import Stencil.Proofs.Condition.Arguments
import Stencil.Proofs.Template.Default
import Stencil.Proofs.Template.Deferral
import Stencil.Proofs.Template.Ending
import Stencil.Proofs.Template.EscapedKey
import Stencil.Proofs.Text.Alphanumeric

/-!
# Whether a parameter is bound

The condition `hasParam(name)` asks for a parameter by resolving the token `$templateParam{name}`,
and is true if anything comes of it.  Resolving goes on with the value of the parameter: a value
that is a text is merged and resolved like any template.  So the condition says whether the
parameter is bound only if there is nothing to merge into its value.  Otherwise it says what comes
of the value, which may be nothing at all, or a failure.

The main statement is `run_checkCondition_hasParam`: the condition is true exactly for bound
parameters whose values are no texts or have nothing to merge, and for all others it is
`replaceParams` of the value that is asked for.  `run_checkCondition_hasParam_merged` are bound
parameters for which the condition is false and a failure.
-/

namespace Stencil.Template

open Stencil.Condition

/-- The condition `hasParam(name)`. -/
def hasParamText (name : Text) : Text := "hasParam(".toList ++ (name ++ [')'])

section Name

variable {name : Text} (hname : ∀ ch ∈ name, Text.isAlphanumeric ch = true)

include hname

/-! ## The call -/

/-- An alphanumeric text is an argument. -/
lemma isArgument_of_isAlphanumeric : IsArgument name := by
  induction name with
  | nil => exact .nil
  | cons ch name ih =>
    obtain ⟨hch, hname⟩ := List.forall_mem_cons.1 hname
    have hdelimiters : Condition.delimiters.any Text.isAlphanumeric = false := by decide +kernel
    refine .plain (fun h => ?_) (fun h => ?_) (ih hname)
    · exact List.any_eq_false.1 hdelimiters ch h hch
    · exact absurd h (Text.ne_of_isAlphanumeric hch (by decide +kernel))

lemma notMem_of_isAlphanumeric {d : Char} (hd : Text.isAlphanumeric d = false) : d ∉ name :=
  fun h => Text.ne_of_isAlphanumeric (hname d h) hd rfl

/-- An argument without quotes is resolved. -/
lemma argument_of_isAlphanumeric (resolver : Resolver) :
    argument resolver [name] 0 = resolver.resolve name := by
  have hunquoted : unquote? name = none := by
    cases name with
    | nil => rfl
    | cons ch name =>
      have hquote : Text.isQuote ch = false := by
        have hne : ∀ d : Char, Text.isAlphanumeric d = false → ch ≠ d :=
          fun d => Text.ne_of_isAlphanumeric (hname ch List.mem_cons_self)
        simp [Text.isQuote, hne '\'' (by decide +kernel), hne '"' (by decide +kernel)]
      simp [unquote?, hquote]
  simp only [argument, List.getElem?_cons_zero, hunquoted]

variable (hne : name ≠ [])

include hne

/-- The condition is scanned as the call of the function with the name for its argument. -/
lemma spells_hasParamText :
    Spells builtinFunctions
      (.operand
        (.call { name := "hasParam".toList, kind := hasParamFunction, arguments := [name] }))
      (hasParamText name) := by
  have hargument := isArgument_of_isAlphanumeric hname
  have hsplit : splitArguments (Text.join [','] [name]) = [name] :=
    splitArguments_join (List.forall_mem_singleton.2 hargument) (by simpa using hne)
  have hcall : Spells builtinFunctions
      (.operand
        (.call { name := "hasParam".toList, kind := hasParamFunction,
                 arguments := splitArguments name }))
      ("hasParam".toList ++ '(' :: (name ++ [')'])) :=
    .call (by decide) (by decide) rfl hargument.closed
  rwa [show splitArguments name = [name] from hsplit] at hcall

end Name

/-! ## Resolutions -/

section Resolve

variable {c : Context} (level : Nat) {name : Text}
  (hname : ∀ ch ∈ name, Text.isAlphanumeric ch = true)

include hname

/-- A name is resolved to itself. -/
lemma run_resolve_name :
    (answer (level + 1) (.resolve (.str name))).run c = .ok (.str name) c := by
  have hstart : '$' ∉ name := notMem_of_isAlphanumeric hname (by decide +kernel)
  have hsharp : '#' ∉ name := notMem_of_isAlphanumeric hname (by decide +kernel)
  have hmark : escapeMark ∉ name := notMem_of_isAlphanumeric hname (by decide +kernel)
  have hopening : ¬ ['#', '{'] <:+: name := fun h => hsharp (h.subset List.mem_cons_self)
  have hrun := run_resolveText_of_plain (answer level) c.mergesAllowed hstart hopening c
  exact run_restore_of_ok hrun hmark

/-- The token of a parameter is resolved to what its value is. -/
lemma run_resolve_param (hsources : c.sources = builtinSources) :
    (answer (level + 1) (.resolve (.str (tokenText "templateParam".toList name)))).run c =
      (finish level c (c.lookUp .templateParams name)).run c := by
  have hstart : '$' ∉ name := notMem_of_isAlphanumeric hname (by decide +kernel)
  have hkey := balanced_putBeforeStarts (notMem_of_isAlphanumeric hname (by decide +kernel))
    (notMem_of_isAlphanumeric hname (by decide +kernel))
  have hsource : c.sources.find? "templateParam".toList = some (scopeSource .templateParams) := by
    rw [hsources]
    rfl
  have htoken := run_resolveText_tokenText (answer level) c.mergesAllowed hsource (by decide)
    (by decide) hkey
  rw [escapeStarts, putBeforeStarts_of_notMem _ hstart, putBeforeStarts_of_notMem _ hstart,
    run_bind_of_ok (run_scopeSource_answer _ _ _ _)] at htoken
  exact run_map_congr restore htoken

end Resolve

/-- A level less of calls is no matter at the start of a resolution. -/
lemma run_finish_answer {c : Context} (hsources : c.sources = builtinSources)
    (hfunctions : c.functions = builtinFunctions) {level : Nat} (hlevel : c.callBudget = level + 1)
    (v : Value) :
    (finish level c v).run c =
      (restore <$> settle (nextRound (handlerOf c) c.mergesAllowed) v).run c := by
  have hc : (endings c.evalDepth c.mergeLimit).kept c := ⟨⟨rfl, rfl⟩, hsources, hfunctions⟩
  have hbudget : 2 * (c.mergeLimit - c.evalDepth).toNat + 1 ≤ c.callBudget := by
    unfold Context.callBudget callLimit
    omega
  -- The comparison of ends allows another number of levels, as long as both are enough.
  have hanswers : ∀ q, AsksOutright q →
      AgreeOn (endings c.evalDepth c.mergeLimit) (answer level q) (handlerOf c q) := by
    intro q hq
    rw [handlerOf, answer_eq_answerOver, answer_eq_answerOver]
    exact agreeOn_outright (by omega) (by omega) hq
  exact run_map_congr restore (AgreeOn.settle (AgreeOn.nextRound hanswers _) v c hc).1

lemma isBlank_of_mem_hasParamText {name : Text}
    (hname : ∀ ch ∈ name, Text.isAlphanumeric ch = true) :
    ∀ ch ∈ hasParamText name, Text.isBlank ch = false := by
  have hfunction : ("hasParam(".toList).any Text.isBlank = false := by decide
  have hargument : ∀ ch ∈ name ++ [')'], Text.isBlank ch = false :=
    List.forall_mem_append.2 ⟨fun ch h => Text.isBlank_of_isAlphanumeric (hname ch h),
      List.forall_mem_singleton.2 (by decide)⟩
  refine List.forall_mem_append.2 ⟨fun ch h => ?_, hargument⟩
  exact Bool.eq_false_iff.2 (List.any_eq_false.1 hfunction ch h)

/-- The condition is evaluated by resolving the token of the parameter. -/
lemma run_checkCondition_resolve {c : Context} (hfunctions : c.functions = builtinFunctions)
    {level : Nat} (hlevel : c.callBudget = level + 1) {name : Text}
    (hname : ∀ ch ∈ name, Text.isAlphanumeric ch = true) (hne : name ≠ []) :
    (checkCondition (some (hasParamText name))).run c =
      (Value.isSome <$>
        answer (level + 1) (.resolve (.str (tokenText "templateParam".toList name)))).run c := by
  let x : Layout builtinFunctions := .leaf _ (hasParamText name) (spells_hasParamText hname hne)
  let p := place (level + 1) c
  let token := tokenText "templateParam".toList name
  have hargument : p.Gives (textArgument Resolver.ofHost [name] 0) name := by
    rw [textArgument, argument_of_isAlphanumeric hname]
    exact (Place.reads_value (p := p) (run_resolve_name level hname)).text
  have htruth : (hasParamFunction.truth Resolver.ofHost [name]).run p.handler p.state =
      (Resolver.ofHost.resolve token >>= fun v => pure v.isSome).run p.handler p.state := by
    have hscript : hasParamFunction.truth Resolver.ofHost [name] =
        textArgument Resolver.ofHost [name] 0 >>= fun t =>
          if t.isEmpty then pure false
          else Resolver.ofHost.resolve (tokenText "templateParam".toList t) >>= fun v =>
            pure v.isSome := by
      have htoken : ∀ t, tokenText "templateParam".toList t =
          "$templateParam\x7b".toList ++ t ++ ['}'] := by simp [tokenText]
      simp only [htoken]
      rfl
    rw [hscript, Place.run_bind_of_gives hargument, if_neg (by simpa using hne)]
  have hasked : ∀ q, (Script.request q).run (answer (level + 1)) = answer (level + 1) q := by
    intro q
    funext c
    simp only [Script.request, Script.run]
    split <;> rename_i h <;> rw [h] <;> rfl
  calc (checkCondition (some (hasParamText name))).run c
      = (checkBy (answer (level + 1)) (some x.text)).run c := by rw [← hlevel]; rfl
    _ = (hasParamFunction.truth Resolver.ofHost [name]).run p.handler p.state :=
        run_checkBy hfunctions (level + 1) trivial (isBlank_of_mem_hasParamText hname)
    _ = (Resolver.ofHost.resolve token >>= fun v => pure v.isSome).run p.handler p.state := htruth
    _ = (Value.isSome <$> answer (level + 1) (.resolve (.str token))).run c := by
        rw [Place.run_bind, map_eq_pure_bind, ← hasked]
        rfl

/-- What the condition comes to is whether anything comes of the parameter's value. -/
lemma run_checkCondition_settle {c : Context} (hsources : c.sources = builtinSources)
    (hfunctions : c.functions = builtinFunctions) {name : Text}
    (hname : ∀ ch ∈ name, Text.isAlphanumeric ch = true) (hne : name ≠ []) :
    (checkCondition (some (hasParamText name))).run c =
      (Value.isSome <$> restore <$> settle (nextRound (handlerOf c) c.mergesAllowed)
        (c.lookUp .templateParams name)).run c := by
  obtain ⟨level, hlevel⟩ : ∃ level, c.callBudget = level + 1 := ⟨c.callBudget - 1, by
    unfold Context.callBudget callLimit
    omega⟩
  rw [run_checkCondition_resolve hfunctions hlevel hname hne]
  exact run_map_congr _ ((run_resolve_param level hname hsources).trans
    (run_finish_answer hsources hfunctions hlevel _))

lemma isSome_restore (v : Value) : (restore v).isSome = v.isSome := by cases v <;> rfl

/-! ## The condition -/

/-- **`hasParam` resolves what it asks for.**  With the built-in sources and functions, whatever
parameters there are, the condition `hasParam(name)` comes to whether the parameter is bound, and
leaves the context as it is, if its value is no text or has nothing to merge in it.  If the value is
a text the condition comes to whether `replaceParams` makes anything of it, and fails where
`replaceParams` fails. -/
theorem run_checkCondition_hasParam (c : Context) (hsources : c.sources = builtinSources)
    (hfunctions : c.functions = builtinFunctions) (name : Text) (hne : name ≠ [])
    (hname : ∀ ch ∈ name, Text.isAlphanumeric ch = true) :
    ((∀ t, c.lookUp .templateParams name = .str t →
        firstBound? c.scopes.templateParams t = none) →
      (checkCondition (some (hasParamText name))).run c =
        .ok (c.lookUp .templateParams name).isSome c) ∧
    ∀ t, c.lookUp .templateParams name = .str t →
      (checkCondition (some (hasParamText name))).run c =
        (Value.isSome <$> replaceParams t).run c := by
  have hsettle := run_checkCondition_settle hsources hfunctions hname hne
  constructor
  · intro hplain
    have hvalue : ∀ next, (settle next (c.lookUp .templateParams name)).run c =
        .ok (c.lookUp .templateParams name) c := by
      intro next
      cases hv : c.lookUp .templateParams name with
      | str t => exact run_mergeParams_of_none (hplain t hv) next
      | _ => rfl
    rw [hsettle, Functor.map_map, map_eq_pure_bind, run_bind_of_ok (hvalue _), EStateM.run_pure]
    exact congrArg (EStateM.Result.ok · c) (isSome_restore _)
  · intro t ht
    have hreplace : (replaceParams t).run c =
        (restore <$> settle (nextRound (handlerOf c) c.mergesAllowed) (.str t)).run c := rfl
    rw [hsettle, ht]
    exact run_map_congr Value.isSome hreplace.symm

/-- A context with a parameter that leads to nothing by way of another, and with one that is no
text. -/
def presenceContext : Context where
  scopes :=
    { templateParams :=
        [(.str ['a'], .str "#\x7bb\x7d".toList), (.str ['b'], .str "$attribute\x7bx\x7d".toList),
         (.str ['n'], .int 5)] }

/-- The condition is true for two of the parameters and false for a name that is not bound; for the
third it depends on what is merged. -/
theorem run_checkCondition_hasParam_bound :
    (∀ t, presenceContext.lookUp .templateParams ['b'] = .str t →
        firstBound? presenceContext.scopes.templateParams t = none) ∧
      (checkCondition (some (hasParamText ['b']))).run presenceContext =
        .ok true presenceContext ∧
      (checkCondition (some (hasParamText ['n']))).run presenceContext =
        .ok true presenceContext ∧
      (checkCondition (some (hasParamText ['z']))).run presenceContext =
        .ok false presenceContext ∧
      (checkCondition (some (hasParamText ['a']))).run presenceContext =
        (Value.isSome <$> replaceParams "#\x7bb\x7d".toList).run presenceContext := by
  have hparam := fun name hne hname =>
    run_checkCondition_hasParam presenceContext rfl rfl name hne
      (List.all_eq_true (p := Text.isAlphanumeric).1 hname)
  have hplain : ∀ t, presenceContext.lookUp .templateParams ['b'] = .str t →
      firstBound? presenceContext.scopes.templateParams t = none := by
    rintro t ⟨⟩
    exact firstBound?_of_noOpening _ (by decide)
  refine ⟨hplain, (hparam ['b'] (by simp) (by decide +kernel)).1 hplain, ?_, ?_, ?_⟩
  · exact (hparam ['n'] (by simp) (by decide +kernel)).1 fun t ht => by cases ht
  · exact (hparam ['z'] (by simp) (by decide +kernel)).1 fun t ht => by cases ht
  · exact (hparam ['a'] (by simp) (by decide +kernel)).2 _ rfl

/-- A parameter that is bound and for which the condition is false, and one that refers to itself,
for which the condition is a failure. -/
theorem run_checkCondition_hasParam_merged :
    presenceContext.lookUp .templateParams ['a'] = .str "#\x7bb\x7d".toList ∧
      (checkCondition (some (hasParamText ['a']))).run presenceContext =
        .ok false presenceContext ∧
      circularContext.lookUp .templateParams ['o'] = .str "#\x7bo\x7d".toList ∧
      ∃ fault, (checkCondition (some (hasParamText ['o']))).run circularContext =
        .error (.resolution fault) circularContext := by
  have hmerged : (settle (nextRound (handlerOf presenceContext) presenceContext.mergesAllowed)
      (presenceContext.lookUp .templateParams ['a'])).run presenceContext =
        .ok .none presenceContext := by
    have hb := ParamName.firstBound?_reference ⟨['b'], by decide, by decide⟩
      presenceContext.scopes.templateParams []
    have hsource : presenceContext.sources.find? "attribute".toList =
        some (scopeSource .attributes) := rfl
    have hkey : Balanced '{' '}' (putBeforeStarts escapeMark ['x']) := by decide
    have htoken := run_resolveText_tokenText (handlerOf presenceContext) 31 hsource (by decide)
      (by decide) hkey
    exact (run_mergeParams_of_whole (by simp [presenceContext]) hb _).trans htoken
  obtain ⟨fault, hcircle⟩ : ∃ fault,
      (settle (nextRound (handlerOf circularContext) circularContext.mergesAllowed)
        (circularContext.lookUp .templateParams ['o'])).run circularContext =
          .error (.resolution fault) circularContext := by
    have hround : circularBook.round^[2] circularWording = circularWording :=
      Function.iterate_fixed rfl 2
    have hleft : ¬ circularBook.Settled (circularBook.round^[2] circularWording) := by
      rw [hround]
      intro hsettled
      cases hsettled _ (List.mem_singleton_self _)
    have hrun :=
      (circularBook_describes.run_resolveText (handlerOf circularContext) 2 circularWording).2 hleft
    rw [resolveText_of_notMem _ _ circularWording.notMem_text.1] at hrun
    exact ⟨_, hrun⟩
  have ha : ∀ ch ∈ ['a'], Text.isAlphanumeric ch = true := List.all_eq_true.1 (by decide +kernel)
  have ho : ∀ ch ∈ ['o'], Text.isAlphanumeric ch = true := List.all_eq_true.1 (by decide +kernel)
  refine ⟨rfl, ?_, rfl, fault, ?_⟩
  · rw [run_checkCondition_settle rfl rfl ha (by simp), Functor.map_map, map_eq_pure_bind]
    exact run_bind_of_ok hmerged
  · rw [run_checkCondition_settle rfl rfl ho (by simp), Functor.map_map, map_eq_pure_bind,
      EStateM.run_bind, hcircle]

end Stencil.Template
