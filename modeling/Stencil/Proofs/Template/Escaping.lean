import Stencil.Proofs.Template.Expansion

/-!
# Escaped start marks

A backslash in front of each `$` makes a template of any text, one that resolves to the text itself.
The scan from the right finds each `$` behind the backslash put before it, never behind one of the
text's own, and replaces that backslash by an escape mark; so what it makes of the template is the
text with an escape mark before each `$` (`sweep_escapeStarts`), and taking the marks out gives the
text back.  Nothing in this asks a source.  The main statement is `run_resolveValue_escapeStarts`.
-/

namespace Stencil.Template

/-- A text with a character put before each `$`. -/
def putBeforeStarts (mark : Char) (t : Text) : Text :=
  t.flatMap fun c => if c = '$' then [mark, c] else [c]

/-- A text with a backslash before each `$`. -/
def escapeStarts (t : Text) : Text := putBeforeStarts '\\' t

lemma putBeforeStarts_append (mark : Char) (s t : Text) :
    putBeforeStarts mark (s ++ t) = putBeforeStarts mark s ++ putBeforeStarts mark t := by
  simp [putBeforeStarts]

/-- Putting a character before each `$` is writing both in place of it. -/
lemma putBeforeStarts_eq_spell (mark : Char) (t : Text) :
    putBeforeStarts mark t = Text.spell '$' [mark, '$'] t := by
  rw [putBeforeStarts, Text.spell]
  congr 1
  funext c
  split
  · rename_i hc
    rw [hc]
  · rfl

/-- The scan finds no token where each `$` has a backslash or an escape mark before it, and leaves
an escape mark there. -/
lemma sweep_putBeforeStarts (handler : Request → Resolution Value) {mark : Char}
    (hescape : isEscape mark = true) (t left right : Text) :
    sweep handler {} ((putBeforeStarts mark t).reverse ++ left) right =
      sweep handler {} left (putBeforeStarts escapeMark t ++ right) := by
  -- The scan goes backwards, so that the induction takes characters off the end.
  induction t using List.reverseRecOn generalizing right with
  | nil => rfl
  | append_singleton t c ih =>
    rw [putBeforeStarts_append, putBeforeStarts_append, List.append_assoc]
    by_cases hc : c = '$'
    · subst hc
      have hmark : ∀ d ∈ (escapeMark :: '$' :: right).head?, d ≠ Marks.standard.start := by
        simp [escapeMark, Marks.standard]
      calc sweep handler {} ((putBeforeStarts mark t ++ [mark, '$']).reverse ++ left) right
          = substitute handler {} (mark :: ((putBeforeStarts mark t).reverse ++ left))
              ('$' :: right) := by simp [sweep]
        _ = substitute handler {} ((putBeforeStarts mark t).reverse ++ left)
              (escapeMark :: '$' :: right) := by simp [substitute, hescape]
        _ = sweep handler {} ((putBeforeStarts mark t).reverse ++ left)
              (escapeMark :: '$' :: right) :=
            substitute_skip handler Marks.standard hmark _
        _ = sweep handler {} left
              (putBeforeStarts escapeMark t ++ (putBeforeStarts escapeMark ['$'] ++ right)) := ih _
    · have hplain : ∀ mark, putBeforeStarts mark [c] = [c] := by
        intro mark
        simp [putBeforeStarts, hc]
      have hskip : sweep handler {} ([c].reverse ++ ((putBeforeStarts mark t).reverse ++ left))
          right = sweep handler {} ((putBeforeStarts mark t).reverse ++ left) ([c] ++ right) :=
        sweep_literal handler Marks.standard (by simpa [Marks.standard] using Ne.symm hc) _ right
      rw [hplain, hplain, ← ih, ← hskip]
      simp

/-- The scan finds no token in an escaped text, and marks each `$` in it. -/
lemma sweep_escapeStarts (handler : Request → Resolution Value) (t left right : Text) :
    sweep handler {} ((escapeStarts t).reverse ++ left) right =
      sweep handler {} left (putBeforeStarts escapeMark t ++ right) :=
  sweep_putBeforeStarts handler rfl t left right

/-- Taking the escape marks out of a marked text gives the text. -/
lemma restoreText_putBeforeStarts {t : Text} (ht : escapeMark ∉ t) :
    restoreText (putBeforeStarts escapeMark t) = t := by
  induction t with
  | nil => rfl
  | cons c t ih =>
    obtain ⟨hc, ht⟩ : escapeMark ≠ c ∧ escapeMark ∉ t := by simpa using ht
    have hfirst : restoreText (putBeforeStarts escapeMark [c]) = [c] := by
      by_cases hdollar : c = '$'
      · subst hdollar
        decide
      · simp [putBeforeStarts, restoreText, hdollar, Ne.symm hc]
    calc restoreText (putBeforeStarts escapeMark ([c] ++ t))
        = restoreText (putBeforeStarts escapeMark [c]) ++
            restoreText (putBeforeStarts escapeMark t) := by
          rw [putBeforeStarts_append, restoreText, List.filter_append]
          rfl
      _ = c :: t := by rw [hfirst, ih ht]; rfl

/-- A token is found only where it occurs. -/
lemma cut?_eq_none {token t : Text} (h : ¬ token <:+: t) : Text.cut? token t = none := by
  cases hcut : Text.cut? token t with
  | none => rfl
  | some cut => exact absurd ⟨cut.1, cut.2, Text.append_of_cut? hcut⟩ h

/-- Marking puts no expression into a text. -/
lemma firstBound?_putBeforeStarts (params : Entries) {t : Text} (ht : escapeMark ∉ t)
    (hopening : ¬ ['#', '{'] <:+: t) :
    firstBound? params (putBeforeStarts escapeMark t) = none := by
  have hmarked : ¬ ['#', '{'] <:+: putBeforeStarts escapeMark t := by
    intro h
    have hfilter : ['#', '{'] <:+: restoreText (putBeforeStarts escapeMark t) :=
      h.filter (· != escapeMark)
    rw [restoreText_putBeforeStarts ht] at hfilter
    exact hopening hfilter
  rw [firstBound?_eq, cutOpening?, cut?_eq_none hmarked]
  rfl

/-- **Escaping is a round trip.**  A text without escape marks, with a backslash before each `$`,
resolves to itself where no template parameter is bound, and with parameters if it has no `#{` in
it.  The context stays as it is, and it may have any sources, such as those that only fail: none of
them is asked. -/
theorem run_resolveValue_escapeStarts (t : Text) (ht : escapeMark ∉ t) (c : Context)
    (sources : SourceRegistry)
    (hparams : c.scopes.templateParams = [] ∨ ¬ ['#', '{'] <:+: t) :
    (resolveValue (.str (escapeStarts t))).run { c with sources } =
      .ok (.str t) { c with sources } := by
  generalize hc : { c with sources } = c'
  -- Without parameters none is looked for, and with them the marks make no `#{` of what was none.
  have hparams' : (if c'.scopes.templateParams.isEmpty then none
      else firstBound? c'.scopes.templateParams (putBeforeStarts escapeMark t)) = none := by
    rcases hparams with hnone | hopening
    · simp [← hc, hnone]
    · rw [firstBound?_putBeforeStarts _ ht hopening, ite_self]
  have hmerge : ∀ next, (mergeParams next (putBeforeStarts escapeMark t)).run c' =
      .ok (.str (putBeforeStarts escapeMark t)) c' := by
    intro next
    rw [mergeParams, run_bind_of_ok (EStateM.run_get c')]
    simp only [hparams']
    rfl
  have htext : (resolveText (handlerOf c') c'.mergesAllowed {} (escapeStarts t)).run c' =
      .ok (.str (putBeforeStarts escapeMark t)) c' := by
    have hsweep := sweep_escapeStarts (handlerOf c') t [] []
    rw [List.append_nil, List.append_nil] at hsweep
    rw [← Marks.delimiters_standard, resolveText_eq, Marks.delimiters_standard, hsweep, sweep,
      pure_bind, settle, hmerge]
  calc (resolveValue (.str (escapeStarts t))).run c'
      = (resolveText (handlerOf c') c'.mergesAllowed {} (escapeStarts t) >>= fun v =>
          pure (restore v)).run c' := rfl
    _ = .ok (.str t) c' := by
        rw [run_bind_of_ok htext, restore, restoreText_putBeforeStarts ht, EStateM.run_pure]

/-- Two type keywords whose sources do nothing but fail. -/
def failingSources : SourceRegistry :=
  [("escape".toList, fun _ => throw .callDepth), ([], fun _ => throw .callDepth)]

/-- A context with a template parameter. -/
def boundContext : Context where
  scopes := { templateParams := [(.str ['a'], .str ['b'])] }

/-- Tokens of these types, one in the other, with backslashes of their own, and a lone `$`. -/
theorem run_resolveValue_escapeStarts_failing :
    escapeMark ∉ "\\$$escape\\\x7b$\x7ba\x7d\x7d$".toList ∧
      boundContext.scopes.templateParams ≠ [] ∧
      ¬ ['#', '{'] <:+: "\\$$escape\\\x7b$\x7ba\x7d\x7d$".toList ∧
      (resolveValue (.str "\\\\$\\$escape\\\x7b\\$\x7ba\x7d\x7d\\$".toList)).run
          { boundContext with sources := failingSources } =
        .ok (.str "\\$$escape\\\x7b$\x7ba\x7d\x7d$".toList)
          { boundContext with sources := failingSources } := by
  have hmark : escapeMark ∉ "\\$$escape\\\x7b$\x7ba\x7d\x7d$".toList := by decide
  have hopening : ¬ ['#', '{'] <:+: "\\$$escape\\\x7b$\x7ba\x7d\x7d$".toList := by decide
  refine ⟨hmark, List.cons_ne_nil _ _, hopening, ?_⟩
  exact run_resolveValue_escapeStarts _ hmark boundContext failingSources (.inr hopening)

end Stencil.Template
