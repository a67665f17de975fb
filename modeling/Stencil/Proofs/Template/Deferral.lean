import Stencil.Proofs.Template.Operand

/-!
# Deferred substitution

A condition with tokens in its operands can be evaluated in two ways.  As it stands, it is compiled
first, and each operand is resolved when an operator asks for it.  As the key of `$eval{…}`, the
tokens are substituted in its text first, and what is compiled is the text that comes of this.  The
main statement, `run_resolveValue_deferred`, is that the two agree where the substituted texts are
operands themselves.

`exists_substituted` is the condition that the second way compiles, as a layout of the same shape as
the first one.  The two ways are brought together from both ends.

* The scan of `$eval{…}` ends with the text of the substituted layout (`run_sweep_condition`), and
  its source evaluates this under a raised count (`run_evalSource`).
* An operand and the one substituted for it have the same text (`readAlike_of_substituted`), though
  one may be a keyword and the other a value that is still to be resolved; and evaluation sees
  nothing of operands but their texts.
-/

namespace Stencil.Template

open Stencil.Condition

/-! ## Substituted conditions -/

/-- An operand that is a word, and the operand that stands for it once its tokens are
substituted. -/
def Substituted (c : Context) (_ : Leaf) (t : Text) (_ : Leaf) (t' : Text) : Prop :=
  ∃ w : Word, w.text = t ∧ w.Fits c ∧ w.form c = t'

lemma IsForm.isWord {t : Text} (ht : IsForm t) : IsWord t :=
  ⟨ht.nonempty, fun ch h => operator?_of_isBare (List.all_eq_true.1 ht.bare ch h)⟩

/-- A text that stands for an operand is the spelling of one. -/
lemma IsForm.exists_spells {t : Text} (ht : IsForm t) : ∃ l, Spells builtinFunctions l t := by
  cases hb : keyword? t with
  | some b => exact ⟨_, .keyword ht.isWord hb⟩
  | none =>
    have hcreate : builtinFunctions.create t = .ok none := by
      rw [FunctionRegistry.create, ht.function]
    exact ⟨_, .value ht.isWord hb hcreate⟩

/-- The condition that comes of substituting the tokens of a condition's operands. -/
lemma exists_substituted {c : Context} (x : Layout builtinFunctions)
    (hwords : ∀ t ∈ x.spellings, ∃ w : Word, w.text = t ∧ w.Fits c) :
    ∃ y, x.Alike (Substituted c) y := by
  induction x with
  | leaf l t hl =>
    obtain ⟨w, rfl, hw⟩ := hwords t (List.mem_singleton.2 rfl)
    cases htoken : w.hasToken with
    | false => exact ⟨.leaf l _ hl, .leaf ⟨w, rfl, hw, Word.form_eq_text htoken⟩⟩
    | true =>
      obtain ⟨l', hl'⟩ := (hw.form htoken).exists_spells
      exact ⟨.leaf l' _ hl', .leaf ⟨w, rfl, hw, rfl⟩⟩
  | group x ih =>
    obtain ⟨y, hy⟩ := ih hwords
    exact ⟨.group y, .group hy⟩
  | negate x ih =>
    obtain ⟨y, hy⟩ := ih hwords
    exact ⟨.negate y, .negate hy⟩
  | join op x x' ihx ihx' =>
    obtain ⟨hx, hx'⟩ := List.forall_mem_append.1 hwords
    obtain ⟨y, hy⟩ := ihx hx
    obtain ⟨y', hy'⟩ := ihx' hx'
    exact ⟨.join op y y', .join op hy hy'⟩

section Substituted

variable {c : Context} {x y : Layout builtinFunctions}

/-- The operands of the two conditions have the same texts, each in its own place. -/
lemma readAlike_of_substituted {c' : Context} (hs : c.sources = builtinSources)
    (hparams : c.scopes.templateParams = []) (hparams' : c'.scopes.templateParams = [])
    (level level' : Nat) (l : Leaf) (t : Text) (l' : Leaf) (t' : Text)
    (h : Substituted c l t l' t') (hl : Spells builtinFunctions l t)
    (hl' : Spells builtinFunctions l' t') :
    ReadAlike (place (level + 1) c) (place (level' + 1) c') l.reduced l'.reduced := by
  obtain ⟨w, rfl, hw, rfl⟩ := h
  cases htoken : w.hasToken with
  | false =>
    rw [Word.form_eq_text htoken] at hl'
    have hbare := Word.all_isBare_text hw.pieces htoken
    exact ⟨_, reads_bare hparams level hl hbare, reads_bare hparams' level' hl' hbare⟩
  | true =>
    have hform := hw.form htoken
    have hreading : bareReading (w.form c) = restoreText (w.form c) := by
      unfold bareReading
      split
      · rename_i b hb
        rw [hform.keyword b hb, restoreText_of_notMem (by cases b <;> decide)]
      · rfl
    refine ⟨_, reads_word hparams level hs hw htoken hl, ?_⟩
    rw [← hreading]
    exact reads_bare hparams' level' hl' hform.bare

/-- The scan goes over a condition as over the substituted one. -/
lemma run_sweep_condition (hs : c.sources = builtinSources) (level : Nat)
    (h : x.Alike (Substituted c) y) {d : Char} (hd : isEscape d = false) (left right : Text) :
    (sweep (answer level) {} (x.text.reverse ++ d :: left) right).run c =
      (sweep (answer level) {} (d :: left) (y.text ++ right)).run c := by
  have hskip : ∀ {e : Char}, '$' ≠ e → ∀ left right : Text,
      sweep (answer level) {} (e :: left) right = sweep (answer level) {} left (e :: right) :=
    fun he left right =>
      sweep_literal (answer level) Marks.standard (List.mem_singleton.not.2 he) left right
  -- By induction on the condition; the scan goes from its end to its start, so the right operand
  -- comes first.
  induction h generalizing d left right with
  | @leaf l l' t t' spells spells' h =>
    obtain ⟨w, rfl, hw, rfl⟩ := h
    have hleft : ∀ e ∈ (d :: left).head?, isEscape e = false := by simpa using hd
    have hword := Word.run_sweep hs level hleft right hw.pieces (k := pure) (by simp)
    rwa [bind_pure, bind_pure] at hword
  | @group x y h ih =>
    have hinner := ih (d := '(') (by decide) (d :: left) (')' :: right)
    rw [hskip (e := '(') (by decide)] at hinner
    simpa [Layout.text, hskip (e := ')') (by decide)] using hinner
  | @negate x y h ih =>
    have hinner := ih (d := '!') (by decide) (d :: left) right
    rw [hskip (e := '!') (by decide)] at hinner
    simpa [Layout.text] using hinner
  | @join op x x' y y' hx hx' ihx ihx' =>
    have hop : '$' ≠ op.symbol.char ∧ isEscape op.symbol.char = false := by cases op <;> decide
    have hright := ihx' hop.2 (x.text.reverse ++ d :: left) right
    rw [hskip hop.1, ihx hd] at hright
    simpa [Layout.text] using hright

/-- Every operand of the substituted condition is what a word stands for. -/
lemma exists_of_mem_spellings (h : x.Alike (Substituted c) y) :
    ∀ t' ∈ y.spellings, ∃ w : Word, w.Fits c ∧ w.form c = t' := by
  induction h with
  | leaf h =>
    obtain ⟨w, -, hw, hform⟩ := h
    simp only [Layout.spellings, List.mem_singleton, forall_eq]
    exact ⟨w, hw, hform⟩
  | group _ ih => exact ih
  | negate _ ih => exact ih
  | join _ _ _ ih ih' => exact List.forall_mem_append.2 ⟨ih, ih'⟩

end Substituted

/-! ## The condition as a key -/

/-- The template `$eval{condition}`. -/
def evalTemplate (condition : Text) : Text := '$' :: ("eval".toList ++ '{' :: (condition ++ ['}']))

/-- The context of a condition that is evaluated for a template. -/
def Context.raised (c : Context) : Context := { c with evalDepth := c.evalDepth + 1 }

/-- The source of conditions evaluates its key as a condition, one level deeper. -/
lemma run_evalSource (level : Nat) (key : Text) (c : Context) :
    ((evalSource key).run (answer (level + 1))).run c =
      (nested key (checkBy (answer level) (some key) >>= fun b => pure (.bool b))).run c := by
  rw [← map_eq_pure_bind]
  simp only [evalSource, Script.request, Script.run, EStateM.run, answer, answerWith, callBy]
  split <;> rename_i h <;> rw [h] <;> rfl

section Nested

variable {c : Context} (hlimit : (c.evalDepth : Int) < c.mergeLimit) {level : Nat} {key : Text}

include hlimit

lemma run_evalSource_of_ok {b : Bool}
    (h : (checkBy (answer level) (some key)).run c.raised = .ok b c.raised) :
    ((evalSource key).run (answer (level + 1))).run c = .ok (.bool b) c := by
  have hinner := run_bind_of_ok (f := fun b => (pure (.bool b) : Resolution Value)) h
  simp only [EStateM.run, Context.raised] at hinner
  rw [run_evalSource]
  simp only [nested, EStateM.run, if_neg (Int.not_le.2 hlimit), hinner]
  rfl

lemma run_evalSource_of_error {e : Failure}
    (h : (checkBy (answer level) (some key)).run c.raised = .error e c.raised) :
    ((evalSource key).run (answer (level + 1))).run c = .error e c := by
  have hinner : (checkBy (answer level) (some key) >>= fun b =>
      (pure (.bool b) : Resolution Value)).run c.raised = .error e c.raised := by
    rw [EStateM.run_bind, h]
  simp only [EStateM.run, Context.raised] at hinner
  rw [run_evalSource]
  simp only [nested, EStateM.run, if_neg (Int.not_le.2 hlimit), hinner]
  rfl

end Nested

section Conditions

variable {c : Context} {x y : Layout builtinFunctions}

/-- Checking a written condition is evaluating its tree in the place that the context is. -/
lemma run_checkBy (hf : c.functions = builtinFunctions) (level : Nat) (hx : x.Nests 1)
    (hblank : ∀ ch ∈ x.text, Text.isBlank ch = false) :
    (checkBy (answer level) (some x.text)).run c =
      (x.settled.evaluate x.program.fault Resolver.ofHost).run (place level c).handler
        (place level c).state := by
  have hcondition := Text.withoutBlanks_eq_self hblank
  have hrun : ∀ condition, (checkBy (answer level) condition).run c =
      (evaluate builtinFunctions Resolver.ofHost condition).run (answer level) c := by
    intro condition
    rw [← hf]
    rfl
  rw [hrun, Layout.evaluate_condition hx hcondition]
  rfl

/-- There is no whitespace in a condition whose operands are words. -/
lemma not_isBlank_of_words (hwords : ∀ t ∈ x.spellings, ∃ w : Word, w.text = t ∧ w.Fits c) :
    ∀ ch ∈ x.text, Text.isBlank ch = false := by
  refine Layout.forall_mem_text (fun s => by cases s <;> decide) fun t ht => ?_
  obtain ⟨w, rfl, hw⟩ := hwords t ht
  exact Word.forall_mem_text (fun ch h => isBlank_of_isBare (isBare_of_isPlain h)) (by decide)
    hw.pieces

/-- Neither whitespace nor a brace is in the substituted condition. -/
lemma plain_of_substituted (h : x.Alike (Substituted c) y) :
    ∀ ch ∈ y.text, Text.isBlank ch = false ∧ ch ≠ '{' ∧ ch ≠ '}' := by
  refine Layout.forall_mem_text (fun s => by cases s <;> decide) fun t ht ch hch => ?_
  obtain ⟨w, hw, rfl⟩ := exists_of_mem_spellings h t ht
  have hbare := List.all_eq_true.1 hw.all_isBare_form ch hch
  exact ⟨isBlank_of_isBare hbare, ne_of_isBare hbare (by decide), ne_of_isBare hbare (by decide)⟩

/-- A condition in a template is the substituted condition as the key of its source. -/
lemma run_sweep_evalTemplate (hs : c.sources = builtinSources) (level : Nat)
    (h : x.Alike (Substituted c) y) :
    (sweep (answer level) {} (evalTemplate x.text).reverse []).run c =
      ((evalSource y.text).run (answer level)).run c := by
  have hplain := plain_of_substituted h
  have hbalanced : Balanced '{' '}' y.text :=
    balanced_of_notMem (fun h => (hplain _ h).2.1 rfl) fun h => (hplain _ h).2.2 rfl
  have hfind : c.sources.find? "eval".toList = some evalSource := by
    rw [hs]
    rfl
  have hreverse : (evalTemplate x.text).reverse =
      ['}'].reverse ++ (x.text.reverse ++ '{' :: ("eval".toList.reverse ++ ['$'])) := by
    simp [evalTemplate]
  have hopening := sweep_literal (answer level) Marks.standard
    (t := "eval".toList ++ ['{']) (by decide) ['$'] (y.text ++ ['}'])
  calc (sweep (answer level) {} (evalTemplate x.text).reverse []).run c
      = (sweep (answer level) {} (x.text.reverse ++ '{' :: ("eval".toList.reverse ++ ['$']))
          ['}']).run c := by
        rw [hreverse]
        exact congrArg (EStateM.run · c)
          (sweep_literal (answer level) Marks.standard (t := ['}']) (by decide) _ [])
    _ = (sweep (answer level) {} ('{' :: ("eval".toList.reverse ++ ['$']))
          (y.text ++ ['}'])).run c := run_sweep_condition hs level h (by decide) _ _
    _ = (substitute (answer level) {} [] (evalTemplate y.text)).run c := by
        exact congrArg (EStateM.run · c) hopening
    _ = ((evalSource y.text).run (answer level)).run c :=
        substitute_whole (answer level) Marks.standard hfind (by decide) hbalanced

/-- Resolving a condition in a template is asking the source of conditions for the substituted
one. -/
lemma run_resolveValue_evalTemplate (hs : c.sources = builtinSources)
    (h : x.Alike (Substituted c) y) :
    (resolveValue (.str (evalTemplate x.text))).run c =
      ((evalSource y.text).run (answer c.callBudget) >>= finish c.callBudget c).run c := by
  have hresolve := run_resolve_eq c.callBudget c (evalTemplate x.text)
  rw [EStateM.run_bind, run_sweep_evalTemplate hs c.callBudget h, ← EStateM.run_bind] at hresolve
  exact hresolve

end Conditions

/-! ## The two ways -/

/-- **Textual and deferred substitution agree.**  Let the context have the built-in sources and
functions, no template parameters, and room for one nested condition, and let the operands of a
written condition be words.  Where a word has a token in it, let what comes of it when the texts of
the values are put in be an operand itself: not empty, without whitespace, operators, marks and
backslashes, in lower case if it is a keyword, and no function's name.  Then `$eval{…}` of the
condition resolves to the truth value that the condition has when it is checked as it stands, or
both fail for the same cause, and differ at most in the condition that the failure shows.  The
context stays as it is either way. -/
theorem run_resolveValue_deferred (c : Context) (hsources : c.sources = builtinSources)
    (hfunctions : c.functions = builtinFunctions) (hparams : c.scopes.templateParams = [])
    (hlimit : (c.evalDepth : Int) < c.mergeLimit) (x : Layout builtinFunctions) (hx : x.Nests 1)
    (hwords : ∀ t ∈ x.spellings, ∃ w : Word, w.text = t ∧ w.Fits c) :
    (∃ b, (resolveValue (.str (evalTemplate x.text))).run c = .ok (.bool b) c ∧
      (checkCondition (some x.text)).run c = .ok b c) ∨
    ∃ e e', (resolveValue (.str (evalTemplate x.text))).run c = .error e c ∧
      (checkCondition (some x.text)).run c = .error e' c ∧ e.cause = e'.cause := by
  obtain ⟨y, hy⟩ := exists_substituted x hwords
  obtain ⟨n, hn⟩ : ∃ n, c.callBudget = n + 2 := ⟨c.callBudget - 2, by
    unfold Context.callBudget callLimit
    omega⟩
  have hblank : ∀ ch ∈ y.text, Text.isBlank ch = false :=
    fun ch h => (plain_of_substituted hy ch h).1
  have hchecked : (checkCondition (some x.text)).run c =
      (checkBy (answer (n + 2)) (some x.text)).run c := by
    rw [← hn]
    rfl
  rw [hchecked, run_checkBy hfunctions (n + 2) hx (not_isBlank_of_words hwords),
    run_resolveValue_evalTemplate hsources hy, hn]
  -- `$eval` checks the condition one level further in, and the parameters are the same there.
  have hraised : c.raised.scopes.templateParams = [] := hparams
  have hcause : ∀ f, (x.program.fault f).cause = (y.program.fault f).cause := fun _ => rfl
  have halong := hy.evaluate (p := place (n + 2) c) (q := place (n + 1) c.raised) hcause
    (readAlike_of_substituted hsources hparams hraised (n + 1) n)
  have hinner := run_checkBy (c := c.raised) hfunctions (n + 1) (hy.nests hx) hblank
  cases halong with
  | @value b b' hb hb' h =>
    obtain rfl := h
    refine .inl ⟨b, ?_, hb⟩
    rw [run_bind_of_ok (run_evalSource_of_ok hlimit (hinner.trans hb'))]
    exact run_finish hparams _ _
  | @failure e e' he he' h =>
    refine .inr ⟨e', e, ?_, he, h.symm⟩
    rw [EStateM.run_bind, run_evalSource_of_error hlimit (hinner.trans he')]

/-- A context with a text and two numbers. -/
def mixedContext : Context where
  scopes :=
    { attributes := [(.str ['k'], .str "true".toList), (.str ['d'], .int 2)],
      session := [(.str ['n'], .int 100)] }

/-- The condition `!${k}|($session{n}/2>1$attribute{d})`. -/
def mixedCondition : Layout builtinFunctions :=
  .join .either
    (.negate (.leaf _ "$\x7bk\x7d".toList (.value (by decide) rfl rfl)))
    (.group (.join .more
      (.join .divide
        (.leaf _ "$session\x7bn\x7d".toList (.value (by decide) rfl rfl))
        (.leaf _ ['2'] (.value (by decide) rfl rfl)))
      (.leaf _ "1$attribute\x7bd\x7d".toList (.value (by decide) rfl rfl))))

/-- A keyword, two numbers and a word of two pieces, which are literals in one way and values in the
other. -/
theorem run_resolveValue_deferred_mixed :
    mixedCondition.Nests 1 ∧ (mixedContext.evalDepth : Int) < mixedContext.mergeLimit ∧
      (∀ t ∈ mixedCondition.spellings, ∃ w : Word, w.text = t ∧ w.Fits mixedContext) ∧
      ((∃ b, (resolveValue (.str (evalTemplate mixedCondition.text))).run mixedContext =
          .ok (.bool b) mixedContext ∧
        (checkCondition (some mixedCondition.text)).run mixedContext = .ok b mixedContext) ∨
      ∃ e e', (resolveValue (.str (evalTemplate mixedCondition.text))).run mixedContext =
          .error e mixedContext ∧
        (checkCondition (some mixedCondition.text)).run mixedContext = .error e' mixedContext ∧
        e.cause = e'.cause) := by
  have hwords : ∀ t ∈ mixedCondition.spellings, ∃ w : Word, w.text = t ∧ w.Fits mixedContext := by
    simp only [mixedCondition, Layout.spellings, List.cons_append, List.nil_append,
      List.forall_mem_cons]
    refine ⟨⟨[.token [] .attributes ['k']], by decide, ?_, fun _ => ?_⟩,
      ⟨[.token "session".toList .session ['n']], by decide, ?_, fun _ => ?_⟩,
      ⟨[.plain ['2']], by decide, ?_, by simp [Word.hasToken, Piece.isToken]⟩,
      ⟨[.plain ['1'], .token "attribute".toList .attributes ['d']], by decide, ?_, fun _ => ?_⟩,
      by simp⟩
    · exact List.forall_mem_singleton.2 ⟨rfl, by decide⟩
    · exact ⟨by decide, by decide, by decide, rfl⟩
    · exact List.forall_mem_singleton.2 ⟨rfl, by decide⟩
    · exact ⟨by decide, by decide, by decide, rfl⟩
    · exact List.forall_mem_singleton.2 (by unfold Piece.Fits; decide)
    · exact List.forall_mem_cons.2
        ⟨by unfold Piece.Fits; decide, List.forall_mem_singleton.2 ⟨rfl, by decide⟩⟩
    · exact ⟨by decide, by decide, by decide, rfl⟩
  have hlimit : (mixedContext.evalDepth : Int) < mixedContext.mergeLimit := by decide
  exact ⟨by decide, hlimit, hwords,
    run_resolveValue_deferred mixedContext rfl rfl rfl hlimit mixedCondition (by decide) hwords⟩

end Stencil.Template
