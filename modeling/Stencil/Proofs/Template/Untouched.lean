import Stencil.Proofs.Template.Escaping

/-!
# What resolution leaves alone

A text without `$` has no token, and one without `#{` nothing to merge; so no round of a resolution
changes such a text, and a token that is the whole template gives the value of its source as it is.
What resolution does at its end it does to all of them alike: it takes the escape marks out.  The
marks are not told from occurrences of the same character that were there before, and so a text or a
value comes back as it was exactly if it has none (`restoreText_eq_self_iff`,
`restore_eq_self_iff`).  A mapping is not searched for them.

The main statement is `run_resolveValue_untouched`; `run_resolveValue_escapeMark` is the text of one
character that is lost.
-/

namespace Stencil.Template

/-! ## Values that taking out escape marks leaves alone -/

lemma restoreText_eq_self_iff {t : Text} : restoreText t = t ↔ escapeMark ∉ t := by
  refine ⟨fun h hmem => ?_, restoreText_of_notMem⟩
  rw [← h, restoreText, List.mem_filter] at hmem
  simp at hmem

mutual

lemma unmarked_of_restore_eq : (v : Value) → restore v = v → Unmarked v
  | .str _, h => restoreText_eq_self_iff.1 (Value.str.inj h)
  | .list items, h => allUnmarked_of_restoreAll_eq items (Value.list.inj h)
  | .tuple items, h => allUnmarked_of_restoreAll_eq items (Value.tuple.inj h)
  | .none, _ => trivial
  | .bool _, _ => trivial
  | .int _, _ => trivial
  | .float _, _ => trivial
  | .dict _, _ => trivial
  | .set _, _ => trivial

lemma allUnmarked_of_restoreAll_eq : (items : List Value) → restoreAll items = items →
    AllUnmarked items
  | [], _ => trivial
  | v :: vs, h => by
    obtain ⟨hfirst, hrest⟩ := List.cons.inj h
    exact ⟨unmarked_of_restore_eq v hfirst, allUnmarked_of_restoreAll_eq vs hrest⟩

end

/-- Taking out escape marks leaves a value alone iff there are none in its texts. -/
lemma restore_eq_self_iff {v : Value} : restore v = v ↔ Unmarked v :=
  ⟨unmarked_of_restore_eq v, restore_of_unmarked v⟩

/-! ## Texts -/

/-- Nothing is bound in a text without `#{`, whatever the parameters are. -/
lemma firstBound?_of_noOpening (params : Entries) {t : Text} (ht : ¬ ['#', '{'] <:+: t) :
    firstBound? params t = none := by
  rw [firstBound?_eq, cutOpening?, cut?_eq_none ht]
  rfl

/-- Nothing is merged into a text without `#{`, whatever the parameters are. -/
lemma run_mergeParams_of_noOpening (next : Option (Text → Resolution Value)) {t : Text}
    (ht : ¬ ['#', '{'] <:+: t) (c : Context) :
    (mergeParams next t).run c = .ok (.str t) c :=
  run_mergeParams_of_none (firstBound?_of_noOpening _ ht) next

/-- A text without tokens and expressions is through with its first round. -/
lemma run_resolveText_of_plain (handler : Request → Resolution Value) (left : Nat) {t : Text}
    (hstart : '$' ∉ t) (hopening : ¬ ['#', '{'] <:+: t) (c : Context) :
    (resolveText handler left {} t).run c = .ok (.str t) c := by
  rw [resolveText_of_notMem handler left hstart, run_mergeParams_of_noOpening _ hopening]

/-! ## Single tokens -/

/-- The template `$attribute{key}`. -/
def attributeToken (key : Text) : Text := '$' :: ("attribute".toList ++ '{' :: (key ++ ['}']))

/-- The scan takes a token that is the whole template for its source's value. -/
lemma run_sweep_attributeToken {key : Text} (hkey : Balanced '{' '}' key) (hstart : '$' ∉ key)
    {c : Context} (hsource : c.sources.find? "attribute".toList = some (scopeSource .attributes)) :
    (sweep (handlerOf c) {} (attributeToken key).reverse []).run c =
      .ok (c.lookUp .attributes key) c := by
  have hrest : '$' ∉ "attribute".toList ++ '{' :: (key ++ ['}']) := by simpa using hstart
  have hskip := sweep_literal (handlerOf c) Marks.standard hrest ['$'] []
  have hwhole :=
    substitute_whole (handlerOf c) Marks.standard hsource (by decide) hkey
  calc (sweep (handlerOf c) {} (attributeToken key).reverse []).run c
      = (substitute (handlerOf c) {} [] (attributeToken key)).run c := by
        rw [← Marks.delimiters_standard, attributeToken, List.reverse_cons, hskip]
        simp [sweep, Marks.standard]
    _ = .ok (c.lookUp .attributes key) c := hwhole.trans (run_scopeSource .attributes key c c)

/-! ## Resolution -/

/-- **Resolution changes nothing but escape marks where there is nothing to resolve.**  A text
without `$` and `#{` resolves to itself without the escape marks in it, in every context; so does an
attribute that is no text, if a template is just its token.  Each of them is the result as it was
exactly if it has no escape marks.  The context stays as it is. -/
theorem run_resolveValue_untouched (c : Context) :
    (∀ t, '$' ∉ t → ¬ ['#', '{'] <:+: t →
      (resolveValue (.str t)).run c = .ok (.str (restoreText t)) c ∧
      (resolveVariables {} t).run c = .ok (.str (restoreText t)) c ∧
      (restoreText t = t ↔ escapeMark ∉ t)) ∧
    (c.sources.find? "attribute".toList = some (scopeSource .attributes) →
      ∀ key, Balanced '{' '}' key → '$' ∉ key → (∀ t, c.lookUp .attributes key ≠ .str t) →
        (resolveValue (.str (attributeToken key))).run c =
          .ok (restore (c.lookUp .attributes key)) c ∧
        (restore (c.lookUp .attributes key) = c.lookUp .attributes key ↔
          Unmarked (c.lookUp .attributes key))) := by
  constructor
  · intro t hstart hopening
    have hrun := run_resolveText_of_plain (handlerOf c) c.mergesAllowed hstart hopening c
    have hresult : (restore <$> resolveText (handlerOf c) c.mergesAllowed {} t).run c =
        .ok (.str (restoreText t)) c := by
      rw [map_eq_pure_bind, run_bind_of_ok hrun]
      rfl
    exact ⟨hresult, hresult, restoreText_eq_self_iff⟩
  · intro hsource key hkey hstart hvalue
    refine ⟨?_, restore_eq_self_iff⟩
    have hsettle : ∀ next, settle next (c.lookUp .attributes key) =
        pure (c.lookUp .attributes key) := by
      intro next
      cases hv : c.lookUp .attributes key with
      | str t => exact absurd hv (hvalue t)
      | _ => rfl
    have hrun : (resolveText (handlerOf c) c.mergesAllowed {} (attributeToken key)).run c =
        .ok (c.lookUp .attributes key) c := by
      rw [← Marks.delimiters_standard, resolveText_eq, Marks.delimiters_standard,
        run_bind_of_ok (run_sweep_attributeToken hkey hstart hsource), hsettle, EStateM.run_pure]
    calc (resolveValue (.str (attributeToken key))).run c
        = (restore <$> resolveText (handlerOf c) c.mergesAllowed {} (attributeToken key)).run c :=
          rfl
      _ = .ok (restore (c.lookUp .attributes key)) c := by
          rw [map_eq_pure_bind, run_bind_of_ok hrun, EStateM.run_pure]

/-- A context with a parameter, and with a row as an attribute: a text with a token and an
expression in it, and a text with an escape mark. -/
def rowContext : Context where
  scopes :=
    { attributes :=
        [(.str ['k'], .tuple [.str "$\x7bk\x7d#\x7bp\x7d".toList, .str ['a', escapeMark]])],
      templateParams := [(.str ['p'], .str ['q'])] }

/-- Nothing in the row is resolved; the escape mark in it is gone. -/
theorem run_resolveValue_untouched_row :
    Balanced '{' '}' ['k'] ∧ '$' ∉ ['k'] ∧
      (resolveValue (.str (attributeToken ['k']))).run rowContext =
        .ok (.tuple [.str "$\x7bk\x7d#\x7bp\x7d".toList, .str ['a']]) rowContext ∧
      '$' ∉ "#k\x7d".toList ∧ ¬ ['#', '{'] <:+: "#k\x7d".toList ∧
      (resolveValue (.str "#k\x7d".toList)).run rowContext =
        .ok (.str "#k\x7d".toList) rowContext := by
  have hkey : Balanced '{' '}' ['k'] := by decide
  have hrow : ∀ t, rowContext.lookUp .attributes ['k'] ≠ .str t := fun _ => Value.noConfusion
  have htoken := (run_resolveValue_untouched rowContext).2 rfl ['k'] hkey (by decide) hrow
  have htext := (run_resolveValue_untouched rowContext).1 "#k\x7d".toList (by decide) (by decide)
  exact ⟨hkey, by decide, htoken.1, by decide, by decide, htext.1⟩

/-- An escape mark that stood in a text is lost, though the text has neither `$` nor `#{`. -/
theorem run_resolveValue_escapeMark :
    '$' ∉ [escapeMark] ∧ ¬ ['#', '{'] <:+: [escapeMark] ∧
      (resolveValue (.str [escapeMark])).run {} = .ok (.str []) {} ∧
      (.str [] : Value) ≠ .str [escapeMark] :=
  ⟨by decide, by decide, rfl, by simp⟩

end Stencil.Template
