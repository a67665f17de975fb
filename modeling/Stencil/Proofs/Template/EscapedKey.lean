import Stencil.Proofs.Template.Untouched

/-!
# Escaped start marks in keys

A backslash in front of a `$` is replaced by an escape mark when the scan gets there, and the escape
marks are taken out of the final result.  A key is cut out of the text in between.  So a data source
is asked for the key with the escape marks in it, and not for the key that was escaped
(`run_resolveValue_tokenText`): only names that need no escaping are looked up as they were meant.
The main statement is `run_resolveValue_escapedKey`; `run_resolveValue_escapedKey_missing` is an
attribute that is not found by its name.
-/

namespace Stencil.Template

/-! ## Tokens with escaped keys -/

/-- The text of a token. -/
def tokenText (keyword key : Text) : Text := '$' :: (keyword ++ '{' :: (key ++ ['}']))

/-- The scan of a token whose key is escaped gets to the token's start mark, with escape marks in
the key. -/
lemma sweep_tokenText (handler : Request → Resolution Value) {keyword : Text} (hk : '$' ∉ keyword)
    (key left right : Text) :
    sweep handler {} ((tokenText keyword (escapeStarts key)).reverse ++ left) right =
      substitute handler {} left (tokenText keyword (putBeforeStarts escapeMark key) ++ right) := by
  have hclosing : '$' ∉ ['}'] := by decide
  have hopening : '$' ∉ keyword ++ ['{'] := by simpa using hk
  calc sweep handler {} ((tokenText keyword (escapeStarts key)).reverse ++ left) right
      = sweep handler {} (['}'].reverse ++ ((escapeStarts key).reverse ++
          ((keyword ++ ['{']).reverse ++ '$' :: left))) right := by simp [tokenText]
    _ = sweep handler {} ((escapeStarts key).reverse ++ ((keyword ++ ['{']).reverse ++ '$' :: left))
          (['}'] ++ right) := sweep_literal handler Marks.standard hclosing _ _
    _ = sweep handler {} ((keyword ++ ['{']).reverse ++ '$' :: left)
          (putBeforeStarts escapeMark key ++ (['}'] ++ right)) := sweep_escapeStarts handler key _ _
    _ = sweep handler {} ('$' :: left)
          (keyword ++ ['{'] ++ (putBeforeStarts escapeMark key ++ (['}'] ++ right))) :=
        sweep_literal handler Marks.standard hopening _ _
    _ = substitute handler {} left
          (tokenText keyword (putBeforeStarts escapeMark key) ++ right) := by
        simp [sweep, tokenText]

/-- The source of a token whose key is escaped is asked for the key with escape marks. -/
lemma run_resolveText_tokenText (handler : Request → Resolution Value) (left : Nat) {c : Context}
    {keyword : Text} {source : Source} (hsource : c.sources.find? keyword = some source)
    (hstart : '$' ∉ keyword) (hopening : '{' ∉ keyword) {key : Text}
    (hkey : Balanced '{' '}' (putBeforeStarts escapeMark key)) :
    (resolveText handler left {} (tokenText keyword (escapeStarts key))).run c =
      ((source (putBeforeStarts escapeMark key)).run handler >>=
        settle (nextRound handler left)).run c := by
  have hsweep := sweep_tokenText handler hstart key [] []
  rw [List.append_nil, List.append_nil] at hsweep
  have hwhole : (substitute handler {} []
      (tokenText keyword (putBeforeStarts escapeMark key))).run c =
        ((source (putBeforeStarts escapeMark key)).run handler).run c :=
    substitute_whole handler Marks.standard hsource hopening hkey
  rw [← Marks.delimiters_standard, resolveText_eq, Marks.delimiters_standard, hsweep,
    EStateM.run_bind, EStateM.run_bind, hwhole]

lemma run_resolveValue_tokenText {c : Context} {keyword : Text} {source : Source}
    (hsource : c.sources.find? keyword = some source) (hstart : '$' ∉ keyword)
    (hopening : '{' ∉ keyword) {key : Text}
    (hkey : Balanced '{' '}' (putBeforeStarts escapeMark key)) :
    (resolveValue (.str (tokenText keyword (escapeStarts key)))).run c =
      ((source (putBeforeStarts escapeMark key)).run (handlerOf c) >>= fun v =>
        restore <$> settle (nextRound (handlerOf c) c.mergesAllowed) v).run c :=
  calc (resolveValue (.str (tokenText keyword (escapeStarts key)))).run c
      = (restore <$> resolveText (handlerOf c) c.mergesAllowed {}
          (tokenText keyword (escapeStarts key))).run c := rfl
    _ = (restore <$> ((source (putBeforeStarts escapeMark key)).run (handlerOf c) >>=
          settle (nextRound (handlerOf c) c.mergesAllowed))).run c :=
        run_map_congr restore
          (run_resolveText_tokenText _ _ hsource hstart hopening hkey)
    _ = ((source (putBeforeStarts escapeMark key)).run (handlerOf c) >>= fun v =>
          restore <$> settle (nextRound (handlerOf c) c.mergesAllowed) v).run c := by
        rw [map_bind]

/-! ## Marked keys -/

/-- A text has an escape mark before each of its start marks, and so one if there is any. -/
lemma mem_putBeforeStarts_iff {t : Text} (ht : escapeMark ∉ t) :
    escapeMark ∈ putBeforeStarts escapeMark t ↔ '$' ∈ t := by
  simp [putBeforeStarts_eq_spell, Text.mem_spell, ht]

lemma putBeforeStarts_of_notMem (mark : Char) {t : Text} (ht : '$' ∉ t) :
    putBeforeStarts mark t = t := by
  rw [putBeforeStarts_eq_spell, Text.spell_of_notMem ht]

/-- A key without braces is balanced, and remains so with escape marks. -/
lemma balanced_putBeforeStarts {t : Text} (hopening : '{' ∉ t) (hclosing : '}' ∉ t) :
    Balanced '{' '}' (putBeforeStarts escapeMark t) := by
  apply balanced_of_notMem
  · simp [putBeforeStarts_eq_spell, Text.mem_spell, hopening, escapeMark]
  · simp [putBeforeStarts_eq_spell, Text.mem_spell, hclosing, escapeMark]

/-! ## Attributes -/

/-- What an attribute resolves to if its name is escaped in a template: the value stored under the
marked name, as far as there is nothing to merge into it. -/
lemma run_resolveValue_attributeToken {c : Context}
    (hsource : c.sources.find? "attribute".toList = some (scopeSource .attributes)) {name : Text}
    (hname : Balanced '{' '}' (putBeforeStarts escapeMark name)) {v : Value}
    (hv : c.lookUp .attributes (putBeforeStarts escapeMark name) = v)
    (hplain : ∀ t, v = .str t → ¬ ['#', '{'] <:+: t) :
    (resolveValue (.str (attributeToken (escapeStarts name)))).run c = .ok (restore v) c := by
  have hsettle : ∀ next, (settle next v).run c = .ok v c := by
    intro next
    cases v with
    | str t => exact run_mergeParams_of_noOpening next (hplain t rfl) c
    | _ => rfl
  have htoken := run_resolveValue_tokenText hsource (by decide) (by decide) hname
  rw [run_bind_of_ok (run_scopeSource _ _ _ _), hv, map_eq_pure_bind, run_bind_of_ok (hsettle _)]
    at htoken
  exact htoken

/-- No entry is found under a name that no entry has. -/
lemma lookUp_of_forall_ne {c : Context} {scope : Scope} {name : Text}
    (h : ∀ key v, (Value.str key, v) ∈ c.scopes.get scope → key ≠ name) :
    c.lookUp scope name = .none := by
  rw [Context.lookUp, Entries.get, Entries.find?, List.find?_eq_none.2]
  · rfl
  · rintro ⟨key, v⟩ hentry
    cases key with
    | str key => simpa [Value.isNamed] using h key v hentry
    | _ => simp [Value.isNamed]

/-- **A data source gets an escaped key with escape marks in it.**  The source of a token whose key
is escaped, whatever its type, is asked for the key with an escape mark before each `$`; this has an
escape mark exactly if the key has a `$`.  So an attribute whose name has no `$` resolves to its
value, less the escape marks in it, if the value is not a text or has no expression in it.  With a
`$` in the name it is another name that is looked up, and nothing is found if no attribute has an
escape mark in its name.  The context stays as it is. -/
theorem run_resolveValue_escapedKey (c : Context) (name : Text) (hopening : '{' ∉ name)
    (hclosing : '}' ∉ name) (hmark : escapeMark ∉ name) :
    (∀ keyword source, c.sources.find? keyword = some source → '$' ∉ keyword → '{' ∉ keyword →
      (resolveValue (.str (tokenText keyword (escapeStarts name)))).run c =
        ((source (putBeforeStarts escapeMark name)).run (handlerOf c) >>= fun v =>
          restore <$> settle (nextRound (handlerOf c) c.mergesAllowed) v).run c) ∧
    (escapeMark ∈ putBeforeStarts escapeMark name ↔ '$' ∈ name) ∧
    (c.sources.find? "attribute".toList = some (scopeSource .attributes) →
      ('$' ∉ name → (∀ t, c.lookUp .attributes name = .str t → ¬ ['#', '{'] <:+: t) →
        (resolveValue (.str (attributeToken (escapeStarts name)))).run c =
          .ok (restore (c.lookUp .attributes name)) c) ∧
      ('$' ∈ name → (∀ key v, (Value.str key, v) ∈ c.scopes.attributes → escapeMark ∉ key) →
        (resolveValue (.str (attributeToken (escapeStarts name)))).run c = .ok .none c)) := by
  have hkey := balanced_putBeforeStarts hopening hclosing
  refine ⟨fun keyword source hsource hstart hbrace =>
    run_resolveValue_tokenText hsource hstart hbrace hkey, mem_putBeforeStarts_iff hmark,
    fun hsource => ⟨fun hstart hplain => ?_, fun hstart hnames => ?_⟩⟩
  · have hsame := putBeforeStarts_of_notMem escapeMark hstart
    exact run_resolveValue_attributeToken hsource hkey (by rw [hsame]) hplain
  · have hmissing : c.lookUp .attributes (putBeforeStarts escapeMark name) = .none := by
      refine lookUp_of_forall_ne fun key v hentry hname => ?_
      exact hnames key v hentry (hname ▸ (mem_putBeforeStarts_iff hmark).2 hstart)
    exact run_resolveValue_attributeToken hsource hkey hmissing (by simp)

/-- A context with an attribute whose name has a `$`, and one whose name has none. -/
def pricedContext : Context where
  scopes := { attributes := [(.str "a$b".toList, .str ['v']), (.str ['c'], .int 5)] }

/-- The attribute without a `$` is found, and the source of the other is asked for a marked name. -/
theorem run_resolveValue_escapedKey_priced :
    '{' ∉ ['c'] ∧ '}' ∉ ['c'] ∧ escapeMark ∉ ['c'] ∧
      (resolveValue (.str "$attribute\x7bc\x7d".toList)).run pricedContext =
        .ok (.int 5) pricedContext ∧
      '{' ∉ "a$b".toList ∧ '}' ∉ "a$b".toList ∧ escapeMark ∉ "a$b".toList ∧
      (resolveValue (.str "$escape\x7ba\\$b\x7d".toList)).run pricedContext =
        ((escapeSource ['a', escapeMark, '$', 'b']).run (handlerOf pricedContext) >>= fun v =>
          restore <$> settle (nextRound (handlerOf pricedContext) pricedContext.mergesAllowed)
            v).run pricedContext := by
  have hplain := run_resolveValue_escapedKey pricedContext ['c'] (by decide) (by decide) (by decide)
  have hpriced := run_resolveValue_escapedKey pricedContext "a$b".toList (by decide) (by decide)
    (by decide)
  refine ⟨by decide, by decide, by decide, ?_, by decide, by decide, by decide, ?_⟩
  · exact (hplain.2.2 rfl).1 (by decide) (fun _ => Value.noConfusion)
  · exact hpriced.1 "escape".toList escapeSource rfl (by decide) (by decide)

/-- An attribute that is not found by its name, though the `$` in the name is escaped. -/
theorem run_resolveValue_escapedKey_missing :
    pricedContext.lookUp .attributes "a$b".toList = .str ['v'] ∧
      (resolveValue (.str "$attribute\x7ba\\$b\x7d".toList)).run pricedContext =
        .ok .none pricedContext := by
  have hkey : Balanced '{' '}' (putBeforeStarts escapeMark "a$b".toList) := by decide
  have hmissing : pricedContext.lookUp .attributes (putBeforeStarts escapeMark "a$b".toList) =
      .none := rfl
  exact ⟨rfl, run_resolveValue_attributeToken rfl hkey hmissing (by simp)⟩

end Stencil.Template
