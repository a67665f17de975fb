import Stencil.Proofs.Template.Extension
import Stencil.Proofs.Template.Untouched

/-!
# Defaults

In an expression such as `#{user,nobody}` a comma sets off a default, which is the value where the
name is not bound.  An expression is cut at the first character that ends a name, and only what
stands before it is looked at for a comma; so a default is read up to the first such character
(`firstBound?_defaulted`).

If it has none, it is used whole, or else makes no difference (`run_resolveValue_wholeDefault`).  If
it has one, the rest of the default is taken for more of the expression, and what was put for the
name is merged into that expression, as in `Stencil.Proofs.Template.Extension`
(`run_resolveValue_cutDefault`): with a default such as `a.b` neither the parameter nor the default
is the result, but an expression that the rest of the default is left in.  The main statement,
`run_resolveValue_defaulted`, has both sides.
-/

namespace Stencil.Template

/-! ## Names and defaults -/

/-- The expression of a name with a default. -/
def defaulted (key default : Text) : Text := '#' :: '{' :: (key ++ ',' :: (default ++ ['}']))

/-- The expression of a name alone. -/
def undefaulted (key : Text) : Text := '#' :: '{' :: (key ++ ['}'])

/-- The value of a name, or the default where it is not bound. -/
def valueOr (params : Entries) (key default : Text) : Value :=
  match Entries.get params key with
  | .none => .str (Text.trim default)
  | value => value

lemma isSome_valueOr (params : Entries) (key default : Text) :
    (valueOr params key default).isSome = true := by
  rw [valueOr]
  cases Entries.get params key <;> rfl

lemma valueOr_of_unbound {params : Entries} {key : Text} (h : Entries.get params key = .none)
    (default : Text) : valueOr params key default = .str (Text.trim default) := by
  rw [valueOr, h]

lemma valueOr_of_bound {params : Entries} {key : Text} (h : Entries.get params key ≠ .none)
    (default : Text) : valueOr params key default = Entries.get params key := by
  rw [valueOr]
  cases hvalue : Entries.get params key with
  | none => exact absurd hvalue h
  | _ => rfl

/-- Whitespace at the end makes no difference to what is left. -/
lemma trim_append_of_blank (t : Text) {blanks : Text}
    (hblanks : ∀ c ∈ blanks, Text.isBlank c = true) : Text.trim (t ++ blanks) = Text.trim t := by
  have hnil : blanks.dropWhile Text.isBlank = [] := List.dropWhile_eq_nil_iff.2 hblanks
  rw [Text.trim, Text.trim, Text.trimWhere, Text.trimWhere, List.dropWhile_append]
  split
  · rename_i hempty
    rw [hnil, List.isEmpty_iff.1 hempty]
  · rw [List.reverse_append, List.dropWhile_append_of_pos]
    intro c hc
    exact hblanks c (List.mem_reverse.1 hc)

/-- Trimming a name and its default is trimming the end of the default. -/
lemma exists_trim_append_comma {key : Text} (hkey : ∀ c ∈ key, Text.isBlank c = false)
    (default : Text) :
    ∃ shorter, Text.trim (key ++ ',' :: default) = key ++ ',' :: shorter ∧
      Text.trim shorter = Text.trim default := by
  have hcomma : Text.isBlank ',' = false := by decide
  have hstart : (key ++ ',' :: default).dropWhile Text.isBlank = key ++ ',' :: default := by
    cases key with
    | nil => simp [hcomma]
    | cons c key => simp [hkey c List.mem_cons_self]
  -- The comma is not blank, so that only the end of the default is trimmed away.
  have hblanks : ∀ c ∈ default.rtakeWhile Text.isBlank, Text.isBlank c = true :=
    fun _ hc => List.mem_rtakeWhile_imp hc
  refine ⟨default.rdropWhile Text.isBlank, ?_, ?_⟩
  · rw [Text.trim, Text.trimWhere, hstart, List.rdropWhile, List.reverse_append,
      List.reverse_cons, List.append_assoc, List.dropWhile_append]
    split
    · rename_i hempty
      simp [hcomma, List.isEmpty_iff.1 hempty]
    · simp
  · rw [← trim_append_of_blank _ hblanks, List.rdropWhile_append_rtakeWhile]

/-- A comma behind a name sets off a default. -/
lemma lookUpParam_defaulted (params : Entries) {key : Text} (hkey : key.all isKeyChar = true)
    (default : Text) :
    lookUpParam params (Text.trim (key ++ ',' :: default)) = valueOr params key default := by
  have hblank : ∀ c ∈ key, Text.isBlank c = false := fun _ hc => (of_isKeyChar hkey hc).2.1.1
  have hcomma : ',' ∉ key := fun hc => (of_isKeyChar hkey hc).2.1.2 rfl
  obtain ⟨shorter, htrim, hshorter⟩ := exists_trim_append_comma hblank default
  rw [htrim, lookUpParam, Text.partition_append_cons hcomma, valueOr, ← hshorter]
  simp only [Text.trim_eq_self hblank]
  cases Entries.get params key <;> rfl

/-! ## The expression with a default -/

section Search

variable (params : Entries) {key : Text} (hkey : key.all isKeyChar = true)

include hkey

/-- The search at an expression with a default, up to the first character that ends a name. -/
lemma firstBound?_defaulted {first : Text} (hfirst : ∀ c ∈ first, endsName c = false)
    {ending : Char} (hends : endsName ending = true) (after : Text) :
    firstBound? params ('#' :: '{' :: (key ++ ',' :: (first ++ ending :: after))) =
      some { before := [], value := valueOr params key first, ending, after } := by
  -- The name goes on over the comma, up to the first character that ends one.
  have hname : ∀ c ∈ key ++ ',' :: first, endsName c = false := by
    intro c hc
    rcases List.mem_append.1 hc with hc | hc
    · exact (of_isKeyChar hkey hc).1
    rcases List.mem_cons.1 hc with rfl | hc
    · decide
    · exact hfirst c hc
  have htext : key ++ ',' :: (first ++ ending :: after) =
      (key ++ ',' :: first) ++ ending :: after := by simp
  rw [htext, firstBound?_expression params hname hends (.inl (by simp)),
    lookUpParam_defaulted params hkey, if_pos (isSome_valueOr params key first)]

/-- The search at the expression of a bound name. -/
lemma firstBound?_undefaulted (hne : key ≠ []) (hbound : Entries.get params key ≠ .none) :
    firstBound? params (undefaulted key) =
      some { before := [], value := Entries.get params key, ending := '}', after := [] } := by
  have hsome : (Entries.get params key).isSome = true := by
    cases hvalue : Entries.get params key with
    | none => exact absurd hvalue hbound
    | _ => rfl
  rw [undefaulted, firstBound?_expression params (fun _ hc => (of_isKeyChar hkey hc).1) (by decide)
    (.inl hne), lookUpParam_name params fun _ hc => (of_isKeyChar hkey hc).2.1, if_pos hsome]

lemma notMem_undefaulted : '$' ∉ undefaulted key := by
  have hdollar : '$' ∉ key := fun h => (of_isKeyChar hkey h).2.2 rfl
  simp [undefaulted, hdollar]

lemma notMem_defaulted {default : Text} (hdefault : '$' ∉ default) :
    '$' ∉ defaulted key default := by
  have hdollar : '$' ∉ key := fun h => (of_isKeyChar hkey h).2.2 rfl
  simp [defaulted, hdollar, hdefault]

end Search

/-! ## Resolution -/

/-- An expression that is the whole text is merged by resolving its value. -/
lemma run_mergeParams_of_whole {c : Context} (hparams : c.scopes.templateParams ≠ []) {t : Text}
    {v : Value} (hv : firstBound? c.scopes.templateParams t =
      some { before := [], value := v, ending := '}', after := [] })
    (resolve : Text → Resolution Value) :
    (mergeParams (some resolve) t).run c = (mapTexts resolve v).run c := by
  rw [mergeParams, run_bind_of_ok (EStateM.run_get c)]
  simp [hparams, hv]

section Run

variable {c : Context} (hparams : c.scopes.templateParams ≠ []) (hlimit : 1 ≤ c.mergeLimit)
  {t : Text} (ht : '$' ∉ t)

include hlimit ht

/-- A text without tokens is resolved by merging. -/
lemma run_resolveValue_of_notMem :
    (resolveValue (.str t)).run c =
      (restore <$> mergeParams
        (some (resolveText (handlerOf c) (c.mergesAllowed - 1) {})) t).run c :=
  calc (resolveValue (.str t)).run c
      = (restore <$> resolveText (handlerOf c) c.mergesAllowed {} t).run c := rfl
    _ = (restore <$> mergeParams
          (some (resolveText (handlerOf c) (c.mergesAllowed - 1) {})) t).run c := by
        rw [resolveText_of_notMem _ _ ht, nextRound_mergesAllowed hlimit]

include hparams

/-- An expression that is the whole text resolves to what its value does. -/
lemma run_resolveValue_of_whole {v : Value}
    (hv : firstBound? c.scopes.templateParams t =
      some { before := [], value := v, ending := '}', after := [] }) :
    (resolveValue (.str t)).run c =
      (restore <$> mapTexts (resolveText (handlerOf c) (c.mergesAllowed - 1) {}) v).run c := by
  rw [run_resolveValue_of_notMem hlimit ht]
  exact run_map_congr restore (run_mergeParams_of_whole hparams hv _)

/-- A single expression that something is merged into resolves to what comes of it. -/
lemma run_resolveValue_of_closed {v : Value} {ending : Char} {rest : Text}
    (hv : firstBound? c.scopes.templateParams t =
      some { before := [], value := v, ending, after := rest ++ ['}'] })
    (hending : ending ≠ '}') (hrest : '}' ∉ rest) :
    (resolveValue (.str t)).run c =
      (restore <$> resolveText (handlerOf c) (c.mergesAllowed - 1) {}
        (extended (bareText v) ending rest)).run
          (c.enterStages [extended (bareText v) ending rest]) := by
  -- After the first merge no expression is found any more, for the text has lost the mark that
  -- closed it.
  have hall : mergeAll c.scopes.templateParams [] t =
      { stages := [extended (bareText v) ending rest],
        text? := some (extended (bareText v) ending rest) } := by
    rw [mergeAll_of_closed hv hending hrest rfl]
    simp [mergeAll_of_none (firstBound?_nil c.scopes.templateParams)]
  rw [run_resolveValue_of_notMem hlimit ht]
  exact run_map_congr _ (run_mergeParams_of_ending hparams hv hending hall _)

end Run

section Default

variable {c : Context} (hparams : c.scopes.templateParams ≠ []) (hlimit : 1 ≤ c.mergeLimit)
  {key default : Text} (hkey : key.all isKeyChar = true)
  (hdefault : default.all isRestChar = true)

include hparams hlimit hkey hdefault

/-- A default in which no name ends is not cut. -/
lemma run_resolveValue_wholeDefault (hwhole : ∀ x ∈ default, endsName x = false) :
    (resolveValue (.str (defaulted key default))).run c =
      (restore <$> mapTexts (resolveText (handlerOf c) (c.mergesAllowed - 1) {})
        (valueOr c.scopes.templateParams key default)).run c :=
  run_resolveValue_of_whole hparams hlimit
    (notMem_defaulted hkey (notMem_of_all hdefault (by decide)))
    (firstBound?_defaulted c.scopes.templateParams hkey hwhole (by decide) [])

/-- The default is the result if its name is not bound. -/
lemma run_resolveValue_unbound (hwhole : ∀ x ∈ default, endsName x = false)
    (hunbound : Entries.get c.scopes.templateParams key = .none) :
    (resolveValue (.str (defaulted key default))).run c = .ok (.str (Text.trim default)) c := by
  have hstart : '$' ∉ Text.trim default :=
    fun h => notMem_of_all hdefault (by decide) (Text.trim_subset _ h)
  have hmark : escapeMark ∉ Text.trim default :=
    fun h => notMem_of_all hdefault (by decide) (Text.trim_subset _ h)
  have hopening : ¬ ['#', '{'] <:+: Text.trim default := by
    intro h
    have hsharp : '#' ∈ Text.trim default := h.subset List.mem_cons_self
    exact notMem_of_all hdefault (by decide) (Text.trim_subset _ hsharp)
  rw [run_resolveValue_wholeDefault hparams hlimit hkey hdefault hwhole,
    valueOr_of_unbound hunbound, mapTexts]
  exact run_restore_of_ok (run_resolveText_of_plain _ _ hstart hopening c) hmark

/-- A default in which a name ends is cut there, and the rest of it goes on behind the value. -/
lemma run_resolveValue_cutDefault {first rest : Text} {ending : Char}
    (hcut : default = first ++ ending :: rest) (hfirst : ∀ x ∈ first, endsName x = false)
    (hends : endsName ending = true) {inner : Text}
    (hinner : bareText (valueOr c.scopes.templateParams key first) = inner) :
    (resolveValue (.str (defaulted key default))).run c =
      (restore <$> resolveText (handlerOf c) (c.mergesAllowed - 1) {}
        (extended inner ending rest)).run (c.enterStages [extended inner ending rest]) := by
  have hclosing : '}' ∉ default := notMem_of_all hdefault (by decide)
  have hending : ending ≠ '}' := by
    rintro rfl
    exact hclosing (by simp [hcut])
  have hrest : '}' ∉ rest := fun h => hclosing (by simp [hcut, h])
  have hfound : firstBound? c.scopes.templateParams (defaulted key default) =
      some { before := [], value := valueOr c.scopes.templateParams key first, ending,
             after := rest ++ ['}'] } := by
    rw [← firstBound?_defaulted c.scopes.templateParams hkey hfirst hends, defaulted, hcut]
    simp
  rw [← hinner]
  exact run_resolveValue_of_closed hparams hlimit
    (notMem_defaulted hkey (notMem_of_all hdefault (by decide))) hfound hending hrest

/-- The expression that a cut default leaves is the result if there is nothing to merge into it. -/
lemma run_resolveValue_leftover {first rest : Text} {ending : Char}
    (hcut : default = first ++ ending :: rest) (hfirst : ∀ x ∈ first, endsName x = false)
    (hends : endsName ending = true) {inner : Text}
    (hinner : bareText (valueOr c.scopes.templateParams key first) = inner)
    (hplain : inner.all isInnerChar = true) (hcomma : ',' ∉ inner.takeWhile (!endsName ·))
    (hunbound : Entries.get c.scopes.templateParams
      (Text.trim (inner.takeWhile (!endsName ·))) = .none) :
    (resolveValue (.str (defaulted key default))).run c =
      .ok (.str (extended inner ending rest)) (c.enterStages [extended inner ending rest]) := by
  have hrest : rest.all isRestChar = true := by
    rw [hcut, List.all_append, List.all_cons] at hdefault
    exact (Bool.and_eq_true_iff.1 (Bool.and_eq_true_iff.1 hdefault).2).2
  have hclosing : '}' ∉ default := notMem_of_all hdefault (by decide)
  have hending : ending ≠ '}' := by
    rintro rfl
    exact hclosing (by simp [hcut])
  let e : Extension :=
    { key, key_plain := hkey, ending, ends := hends, ne_closing := hending,
      rest, rest_plain := hrest, inner, inner_plain := hplain }
  have hnone : firstBound? (c.enterStages [e.merged]).scopes.templateParams e.merged = none := by
    have hpassed := e.firstBound?_merged hcomma hunbound (firstBound?_nil c.scopes.templateParams)
    rwa [List.append_nil] at hpassed
  rw [run_resolveValue_cutDefault hparams hlimit hkey hdefault hcut hfirst hends hinner]
  exact run_restore_of_ok
    (run_resolveText_of_none _ _ (e.notMem_merged (by decide) (by decide)) hnone)
    (e.notMem_merged (by decide) (by decide))

end Default

/-- **A default is used whole, or makes no difference, exactly as far as no name ends in it.**  Let
there be parameters, and let the context allow a merge.  If no character of a default ends a name,
the expression resolves as it does without the default where the name is bound, and to the default
without whitespace around it where it is not.  Otherwise the default is cut at the first such
character.  The parameter, or the part of the default before the cut, is then merged into an
expression that the rest of the default is left in; and where that has nothing to merge, it is the
result. -/
theorem run_resolveValue_defaulted (c : Context) (hparams : c.scopes.templateParams ≠ [])
    (hlimit : 1 ≤ c.mergeLimit) (key default : Text) (hne : key ≠ [])
    (hkey : key.all isKeyChar = true) (hdefault : default.all isRestChar = true) :
    ((∀ x ∈ default, endsName x = false) →
      (Entries.get c.scopes.templateParams key ≠ .none →
        (resolveValue (.str (defaulted key default))).run c =
          (resolveValue (.str (undefaulted key))).run c) ∧
      (Entries.get c.scopes.templateParams key = .none →
        (resolveValue (.str (defaulted key default))).run c =
          .ok (.str (Text.trim default)) c)) ∧
    ∀ first ending rest inner, default = first ++ ending :: rest →
      (∀ x ∈ first, endsName x = false) → endsName ending = true →
      bareText (valueOr c.scopes.templateParams key first) = inner →
        (resolveValue (.str (defaulted key default))).run c =
          (restore <$> resolveText (handlerOf c) (c.mergesAllowed - 1) {}
            (extended inner ending rest)).run (c.enterStages [extended inner ending rest]) ∧
        (inner.all isInnerChar = true → ',' ∉ inner.takeWhile (!endsName ·) →
          Entries.get c.scopes.templateParams
            (Text.trim (inner.takeWhile (!endsName ·))) = .none →
          (resolveValue (.str (defaulted key default))).run c =
            .ok (.str (extended inner ending rest))
              (c.enterStages [extended inner ending rest])) := by
  refine ⟨fun hwhole => ⟨fun hbound => ?_, fun hunbound => ?_⟩, ?_⟩
  · rw [run_resolveValue_wholeDefault hparams hlimit hkey hdefault hwhole, valueOr_of_bound hbound,
      run_resolveValue_of_whole hparams hlimit (notMem_undefaulted hkey)
        (firstBound?_undefaulted _ hkey hne hbound)]
  · exact run_resolveValue_unbound hparams hlimit hkey hdefault hwhole hunbound
  · intro first ending rest inner hcut hfirst hends hinner
    exact ⟨run_resolveValue_cutDefault hparams hlimit hkey hdefault hcut hfirst hends hinner,
      run_resolveValue_leftover hparams hlimit hkey hdefault hcut hfirst hends hinner⟩

/-- A context in which `p` is bound and `k` is not. -/
def defaultContext : Context where
  scopes := { templateParams := [(.str ['p'], .str ['v'])] }

/-- A default of one word is used whole, and not where the name is bound; one with a dot is left in
an expression in either case. -/
theorem run_resolveValue_defaulted_words :
    defaultContext.scopes.templateParams ≠ [] ∧ 1 ≤ defaultContext.mergeLimit ∧
      (resolveValue (.str "#\x7bk, a b \x7d".toList)).run defaultContext =
        .ok (.str "a b".toList) defaultContext ∧
      (resolveValue (.str "#\x7bp, a b \x7d".toList)).run defaultContext =
        (resolveValue (.str "#\x7bp\x7d".toList)).run defaultContext ∧
      (resolveValue (.str "#\x7bp,a.b\x7d".toList)).run defaultContext =
        .ok (.str "#\x7bv.b\x7d".toList)
          (defaultContext.enterStages ["#\x7bv.b\x7d".toList]) := by
  have hparams : defaultContext.scopes.templateParams ≠ [] := List.cons_ne_nil _ _
  have hlimit : 1 ≤ defaultContext.mergeLimit := by decide
  have hwords := fun key =>
    run_resolveValue_defaulted defaultContext hparams hlimit key " a b ".toList
  have hwhole : ∀ x ∈ " a b ".toList, endsName x = false := Text.eq_false_of_all rfl
  have hfirst : ∀ x ∈ ['a'], endsName x = false := Text.eq_false_of_all rfl
  refine ⟨hparams, hlimit, ?_, ?_, ?_⟩
  · exact ((hwords ['k'] (by decide) (by decide) (by decide)).1 hwhole).2 rfl
  · have hbound : Entries.get defaultContext.scopes.templateParams ['p'] ≠ .none := by
      rintro ⟨⟩
    exact ((hwords ['p'] (by decide) (by decide) (by decide)).1 hwhole).1 hbound
  · have hdotted := run_resolveValue_defaulted defaultContext hparams hlimit ['p'] "a.b".toList
      (by decide) (by decide) (by decide)
    exact (hdotted.2 ['a'] '.' ['b'] ['v'] rfl hfirst rfl rfl).2 (by decide) (by decide) rfl

/-- A default is not used whole: with a dot in it, the expression of a name that is not bound
resolves to an expression with the default in the name's place. -/
theorem run_resolveValue_defaulted_dotted :
    Entries.get defaultContext.scopes.templateParams ['k'] = .none ∧
      (resolveValue (.str "#\x7bk,a.b\x7d".toList)).run defaultContext =
        .ok (.str "#\x7ba.b\x7d".toList)
          (defaultContext.enterStages ["#\x7ba.b\x7d".toList]) ∧
      "#\x7ba.b\x7d".toList ≠ Text.trim "a.b".toList := by
  have hkey : (['k'] : Text).all isKeyChar = true := by decide
  have hdefault : "a.b".toList.all isRestChar = true := by decide
  have hcut : "a.b".toList = ['a'] ++ '.' :: ['b'] := rfl
  have hfirst : ∀ x ∈ ['a'], endsName x = false := Text.eq_false_of_all rfl
  have hinner : bareText (valueOr defaultContext.scopes.templateParams ['k'] ['a']) = ['a'] := rfl
  refine ⟨rfl, ?_, by decide⟩
  exact run_resolveValue_leftover (List.cons_ne_nil _ _) (by decide) hkey hdefault
    hcut hfirst rfl hinner (by decide) (by decide) rfl

end Stencil.Template
