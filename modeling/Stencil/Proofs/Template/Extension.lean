import Stencil.Proofs.Template.Escaping

/-!
# Parameters in larger expressions

In an expression such as `#{user.name}` the name of a parameter is followed by more, and merging
puts the parameter's value, without the braces of an expression that it may be, for the name alone.
This file describes a text as a `Draft`, of literal texts and such expressions (`Extension`), and
says what becomes of it: each expression is rewritten in its place and nothing else is changed
(`run_replaceParams_draft`).

What is merged is searched again, in the next round.  That round must find nothing, so the
parameters must not go on to refer to each other: `Extension.Fits` says that what is read as the
name in the rewritten expression is not bound.  With that the two rounds are two inductions over the
draft, with one step for each kind of passage: `Draft.mergeAll_text` for the first and
`Draft.firstBound?_merged` for the second.
-/

namespace Stencil.Template

/-! ## Drafts -/

/-- Whether a character may stand in the name of a parameter: it ends no name, sets off no default,
is not trimmed away, and starts nothing. -/
def isKeyChar (c : Char) : Bool :=
  !endsName c && !Text.isBlank c && !([',', '#', '{', '$'] : Text).contains c

/-- Whether a character may stand behind the name in an expression. -/
def isRestChar (c : Char) : Bool := isPlainChar c && c != '}'

/-- Whether a character may stand in what is put for the name. -/
def isInnerChar (c : Char) : Bool := isRestChar c && c != '{'

/-- The expression in which a name is followed by more. -/
def extended (name : Text) (ending : Char) (rest : Text) : Text :=
  '#' :: '{' :: (name ++ ending :: (rest ++ ['}']))

/-- An expression in which a name is followed by more, together with what is put for the name. -/
structure Extension where
  key : Text
  key_plain : key.all isKeyChar = true
  ending : Char
  ends : endsName ending = true
  ne_closing : ending ≠ '}'
  rest : Text
  rest_plain : rest.all isRestChar = true
  inner : Text
  inner_plain : inner.all isInnerChar = true

namespace Extension

/-- The expression as it is written. -/
def text (e : Extension) : Text := extended e.key e.ending e.rest

/-- The expression with the name replaced. -/
def merged (e : Extension) : Text := extended e.inner e.ending e.rest

/-- What is read as a name in the expression with the name replaced. -/
def head (e : Extension) : Text := e.inner.takeWhile (!endsName ·)

/-- The parameters have for the name what is put for it, alone or as an expression, and nothing to
merge into what comes of it. -/
structure Fits (params : Entries) (e : Extension) : Prop where
  bound : (Entries.get params e.key).isSome = true
  value : (Entries.get params e.key).text = e.inner ∨
    (Entries.get params e.key).text = '#' :: '{' :: (e.inner ++ ['}'])
  head_plain : ∀ c ∈ e.head, Text.isBlank c = false ∧ c ≠ ','
  head_unbound : Entries.get params e.head = .none

end Extension

/-- A piece of a draft. -/
inductive Passage where
  | literal (t : Text) (plain : t.all isPlainChar = true)
  | extension (e : Extension)

/-- The text of a piece. -/
def Passage.text : Passage → Text
  | .literal t _ => t
  | .extension e => e.text

/-- What becomes of a piece. -/
def Passage.merged : Passage → Text
  | .literal t _ => t
  | .extension e => e.merged

/-- A text made of literal texts and expressions that go on behind a name. -/
abbrev Draft := List Passage

namespace Draft

/-- The text of a draft. -/
def text (w : Draft) : Text := w.flatMap Passage.text

/-- What becomes of a draft. -/
def merged (w : Draft) : Text := w.flatMap Passage.merged

/-- What the text so far is after each of the merges, where `done` has been merged before. -/
def stages (done : Text) : Draft → List Text
  | [] => []
  | .literal t _ :: w => stages (done ++ t) w
  | .extension e :: w => (done ++ e.merged) :: stages (done ++ e.merged) w

@[simp] lemma text_cons (passage : Passage) (w : Draft) :
    text (passage :: w) = passage.text ++ text w := rfl

@[simp] lemma merged_cons (passage : Passage) (w : Draft) :
    merged (passage :: w) = passage.merged ++ merged w := rfl

/-- All expressions of a draft fit the parameters. -/
def Fits (params : Entries) (w : Draft) : Prop := ∀ e, .extension e ∈ w → e.Fits params

lemma fits_cons {params : Entries} {passage : Passage} {w : Draft} :
    Fits params (passage :: w) ↔ Fits params [passage] ∧ Fits params w := by
  simp only [Fits, List.mem_cons, List.not_mem_nil, or_false, or_imp, forall_and]

end Draft

/-! ## Characters -/

lemma of_isKeyChar {key : Text} (hkey : key.all isKeyChar = true) {c : Char} (hc : c ∈ key) :
    endsName c = false ∧ (Text.isBlank c = false ∧ c ≠ ',') ∧ c ≠ '$' := by
  have h := List.all_eq_true.1 hkey c hc
  simp only [isKeyChar, Bool.and_eq_true, Bool.not_eq_true', List.contains_eq_mem,
    decide_eq_false_iff_not, List.mem_cons, not_or] at h
  exact ⟨h.1.1, ⟨h.1.2, h.2.1⟩, h.2.2.2.2.1⟩

/-- A class of characters keeps out what is not in it. -/
lemma notMem_of_all {p : Char → Bool} {t : Text} (ht : t.all p = true) {c : Char}
    (hc : p c = false) : c ∉ t := by
  intro h
  rw [List.all_eq_true.1 ht c h] at hc
  cases hc

/-- A cut at the closing brace. -/
lemma cut?_closing {s : Text} (hs : '}' ∉ s) (t : Text) :
    Text.cut? ['}'] (s ++ '}' :: t) = some (s, t) := by
  rw [Text.cut?_append hs]
  simp [Text.cut?, List.isPrefixOf]

/-! ## Values without their braces -/

lemma dropStart_opening_of_notMem {t : Text} (ht : '#' ∉ t) : Text.dropStart ['#', '{'] t = t := by
  rw [Text.dropStart, if_neg]
  intro h
  exact ht ((List.isPrefixOf_iff_prefix.1 h).subset List.mem_cons_self)

lemma dropEnd_closing_of_notMem {t : Text} (ht : '}' ∉ t) : Text.dropEnd ['}'] t = t := by
  rw [Text.dropEnd, if_neg]
  intro h
  exact ht ((List.isSuffixOf_iff_suffix.1 h).subset List.mem_cons_self)

/-- The braces of a value that is an expression are left out. -/
lemma bareText_eq {v : Value} {inner : Text} (hsharp : '#' ∉ inner) (hclosing : '}' ∉ inner)
    (hv : v.text = inner ∨ v.text = '#' :: '{' :: (inner ++ ['}'])) : bareText v = inner := by
  rcases hv with hv | hv
  · rw [bareText, hv, dropStart_opening_of_notMem hsharp, dropEnd_closing_of_notMem hclosing]
  · have hstart : Text.dropStart ['#', '{'] ('#' :: '{' :: (inner ++ ['}'])) = inner ++ ['}'] := by
      simp [Text.dropStart, List.isPrefixOf]
    have hend : Text.dropEnd ['}'] (inner ++ ['}']) = inner := by
      rw [Text.dropEnd, if_pos (List.isSuffixOf_iff_suffix.2 (List.suffix_append _ _))]
      simp
    rw [bareText, hv, hstart, hend]

/-! ## The first round -/

section First

variable {params : Entries}

/-- What the search passes over is copied. -/
lemma mergeAll_skip {s t : Text}
    (h : firstBound? params (s ++ t) =
      (firstBound? params t).map fun b => { b with before := s ++ b.before }) (done : Text) :
    mergeAll params done (s ++ t) = mergeAll params (done ++ s) t := by
  cases hb : firstBound? params t with
  | none =>
    rw [hb] at h
    rw [mergeAll_of_none h, mergeAll_of_none hb, List.append_assoc]
  | some b =>
    rw [hb] at h
    by_cases hending : b.ending = '}'
    · rw [mergeAll_of_closing h hending, mergeAll_of_closing hb hending]
      simp
    · rw [mergeAll_of_ending h hending, mergeAll_of_ending hb hending]
      simp

lemma mergeAll_append {s : Text} (hs : '#' ∉ s) (done t : Text) :
    mergeAll params done (s ++ t) = mergeAll params (done ++ s) t :=
  mergeAll_skip (firstBound?_append params hs t) done

/-- A value is merged into an expression up to its closing brace, and the text is merged further
behind it. -/
lemma mergeAll_of_closed {done t rest after : Text} {b : Bound} (h : firstBound? params t = some b)
    (hb : b.ending ≠ '}') (hrest : '}' ∉ rest) (hafter : b.after = rest ++ '}' :: after) :
    mergeAll params done t =
      let done := done ++ b.before ++ extended (bareText b.value) b.ending rest
      { mergeAll params done after with
        stages := done :: (mergeAll params done after).stages } := by
  rw [mergeAll_of_ending h hb, hafter, cut?_closing hrest]
  simp [extended]

namespace Extension

lemma text_append (e : Extension) (t : Text) :
    e.text ++ t = '#' :: '{' :: (e.key ++ e.ending :: (e.rest ++ '}' :: t)) := by
  simp [text, extended]

/-- An expression that fits the parameters is found. -/
lemma Fits.firstBound?_text {e : Extension} (he : e.Fits params) (t : Text) :
    firstBound? params (e.text ++ t) =
      some { before := [], value := Entries.get params e.key, ending := e.ending,
             after := e.rest ++ '}' :: t } := by
  have hname : ∀ c ∈ e.key, endsName c = false := fun _ hc => (of_isKeyChar e.key_plain hc).1
  rw [e.text_append, firstBound?_expression params hname e.ends (.inr (by simp)),
    lookUpParam_name params fun _ hc => (of_isKeyChar e.key_plain hc).2.1, if_pos he.bound]

/-- The value is merged into an expression, and the text is merged further behind it. -/
lemma Fits.mergeAll_text {e : Extension} (he : e.Fits params) (done t : Text) :
    mergeAll params done (e.text ++ t) =
      { mergeAll params (done ++ e.merged) t with
        stages := (done ++ e.merged) :: (mergeAll params (done ++ e.merged) t).stages } := by
  have hrest : '}' ∉ e.rest := notMem_of_all e.rest_plain (by decide)
  have hinner : bareText (Entries.get params e.key) = e.inner :=
    bareText_eq (notMem_of_all e.inner_plain (by decide)) (notMem_of_all e.inner_plain (by decide))
      he.value
  rw [mergeAll_of_closed (he.firstBound?_text t) e.ne_closing hrest rfl]
  simp [hinner, merged]

end Extension

namespace Draft

/-- The first round rewrites the expressions. -/
lemma mergeAll_text {w : Draft} (hw : Fits params w) (done : Text) :
    mergeAll params done w.text =
      { stages := w.stages done, text? := some (done ++ w.merged) } := by
  -- By induction on the draft, with what has been rewritten so far as the part that is done.
  induction w generalizing done with
  | nil => exact mergeAll_of_none (firstBound?_nil params)
  | cons passage w ih =>
    obtain ⟨hpassage, htail⟩ := fits_cons.1 hw
    cases passage with
    | literal t plain =>
      rw [text_cons, Passage.text, mergeAll_append (notMem_of_all plain (by decide)), ih htail]
      simp [stages, Passage.merged]
    | extension e =>
      have he : e.Fits params := hpassage e (List.mem_singleton_self _)
      rw [text_cons, Passage.text, he.mergeAll_text, ih htail]
      simp [stages, Passage.merged]

/-- What the first round finds is one of the expressions. -/
lemma exists_of_firstBound? {w : Draft} (hw : Fits params w) {b : Bound}
    (h : firstBound? params w.text = some b) :
    ∃ e, .extension e ∈ w ∧ b.ending = e.ending := by
  induction w generalizing b with
  | nil =>
    rw [text, List.flatMap_nil, firstBound?_nil] at h
    cases h
  | cons passage w ih =>
    obtain ⟨hpassage, htail⟩ := fits_cons.1 hw
    cases passage with
    | literal t plain =>
      rw [text_cons, Passage.text,
        firstBound?_append params (notMem_of_all plain (by decide))] at h
      obtain ⟨b', hb', rfl⟩ := Option.map_eq_some_iff.1 h
      obtain ⟨e, he, hending⟩ := ih htail hb'
      exact ⟨e, List.mem_cons_of_mem _ he, hending⟩
    | extension e =>
      have he : e.Fits params := hpassage e (List.mem_singleton_self _)
      rw [text_cons, Passage.text, he.firstBound?_text] at h
      obtain rfl := Option.some.inj h
      exact ⟨e, List.mem_cons_self, rfl⟩

end Draft

end First

/-! ## The second round -/

section Second

variable {params : Entries}

/-- The rewritten expression is read up to the end of a name, and what follows has no `#`. -/
lemma Extension.exists_merged_eq (e : Extension) :
    ∃ ending after, endsName ending = true ∧ '#' ∉ after ∧ after ≠ [] ∧
      e.merged = '#' :: '{' :: (e.head ++ ending :: after) := by
  have hrest : '#' ∉ e.rest := notMem_of_all e.rest_plain (by decide)
  have hinner := List.takeWhile_append_dropWhile (p := (!endsName ·)) (l := e.inner)
  -- Either no name ends in the value and the old end comes next, or one does and cuts the value
  -- there.
  cases hdrop : e.inner.dropWhile (!endsName ·) with
  | nil =>
    rw [hdrop, List.append_nil] at hinner
    exact ⟨e.ending, e.rest ++ ['}'], e.ends, by simp [hrest], by simp,
      by rw [merged, extended, head, hinner]⟩
  | cons ending tail =>
    rw [hdrop] at hinner
    have htail : '#' ∉ tail := by
      intro h
      have hmem : '#' ∈ e.inner := hinner ▸ List.mem_append_right _ (List.mem_cons_of_mem _ h)
      exact notMem_of_all e.inner_plain (by decide) hmem
    have hending : '#' ≠ e.ending := by
      rintro h
      exact absurd e.ends (by rw [← h]; decide)
    refine ⟨ending, tail ++ e.ending :: (e.rest ++ ['}']), endsName_of_dropWhile hdrop,
      by simp [htail, hending, hrest], by simp, ?_⟩
    rw [merged, extended, ← hinner, head]
    simp

/-- The rewritten expression is passed over if its name is not bound. -/
lemma Extension.firstBound?_merged {e : Extension} (hcomma : ',' ∉ e.head)
    (hbound : Entries.get params (Text.trim e.head) = .none) {t : Text}
    (ht : firstBound? params t = none) : firstBound? params (e.merged ++ t) = none := by
  obtain ⟨ending, after, hends, hafter, hne, hmerged⟩ := e.exists_merged_eq
  have hname : ∀ c ∈ e.head, endsName c = false := Text.eq_false_of_all List.all_takeWhile
  have hvalue : lookUpParam params (Text.trim e.head) = .none := by
    rw [lookUpParam_of_notMem params fun h => hcomma (Text.trim_subset _ h), Text.trim_trim, hbound]
  have htext : e.merged ++ t = '#' :: '{' :: (e.head ++ ending :: (after ++ t)) := by
    rw [hmerged]
    simp
  rw [htext, firstBound?_expression params hname hends (.inr (by simp [hne])), hvalue,
    firstBound?_append params hafter, ht]
  rfl

lemma Extension.Fits.firstBound?_merged {e : Extension} (he : e.Fits params) {t : Text}
    (ht : firstBound? params t = none) : firstBound? params (e.merged ++ t) = none := by
  have hcomma : ',' ∉ e.head := fun h => (he.head_plain _ h).2 rfl
  have htrim : Text.trim e.head = e.head := Text.trim_eq_self fun c hc => (he.head_plain c hc).1
  exact Extension.firstBound?_merged hcomma (htrim.symm ▸ he.head_unbound) ht

/-- The second round finds nothing. -/
lemma Draft.firstBound?_merged {w : Draft} (hw : Fits params w) :
    firstBound? params w.merged = none := by
  induction w with
  | nil => exact firstBound?_nil params
  | cons passage w ih =>
    obtain ⟨hpassage, htail⟩ := fits_cons.1 hw
    -- No literal starts an expression, and each rewritten one has a name that is not bound.
    cases passage with
    | literal t plain =>
      rw [merged_cons, Passage.merged, firstBound?_append params (notMem_of_all plain (by decide)),
        ih htail]
      rfl
    | extension e =>
      have he : e.Fits params := hpassage e (List.mem_singleton_self _)
      exact he.firstBound?_merged (ih htail)

end Second

/-- Apart from the marks of an expression nothing that is rewritten has a reserved character. -/
lemma Extension.notMem_merged {c : Char} (hc : isPlainChar c = false) (hmark : c ≠ '#')
    (e : Extension) : c ∉ e.merged := by
  have hrest : c ∉ e.rest := notMem_of_all e.rest_plain (by simp [isRestChar, hc])
  have hinner : c ∉ e.inner := notMem_of_all e.inner_plain (by simp [isInnerChar, isRestChar, hc])
  have hmarks : c ≠ '{' ∧ c ≠ '}' := by
    constructor <;> rintro rfl <;> exact absurd hc (by decide)
  have hending : c ≠ e.ending := by
    rintro rfl
    have hends := e.ends
    have hplain : ∀ d ∈ nameEnds, isPlainChar d = true := List.all_eq_true.1 rfl
    rw [hplain _ (by simpa [endsName] using hends)] at hc
    cases hc
  simp [merged, extended, hmark, hmarks, hinner, hending, hrest]

lemma Draft.notMem_merged {c : Char} (hc : isPlainChar c = false) (hmark : c ≠ '#') (w : Draft) :
    c ∉ w.merged := by
  simp only [merged, List.mem_flatMap, not_exists, not_and]
  rintro (⟨t, plain⟩ | e) -
  · exact notMem_of_all plain hc
  · exact e.notMem_merged hc hmark

/-! ## Resolution -/

/-- A context with the records of merges into expressions in its journal. -/
def Context.enterStages (c : Context) (stages : List Text) : Context :=
  { c with
    journal := c.journal ++ stages.map fun stage =>
      .record { level := .debug, channel := .resolver,
                text := "Merged template parameter into '".toList ++ stage ++ ['\''] } }

@[simp] lemma Context.scopes_enterStages (c : Context) (stages : List Text) :
    (c.enterStages stages).scopes = c.scopes := rfl

lemma run_reportStages (stages : List Text) (c : Context) :
    (reportStages stages).run c = .ok () (c.enterStages stages) := by
  induction stages generalizing c with
  | nil => simp [reportStages, Context.enterStages]
  | cons stage stages ih =>
    rw [reportStages, run_bind_of_ok (by rfl), ih]
    simp [Context.enterStages, Context.enter]

/-- Where a merge is allowed there is a next round. -/
lemma nextRound_mergesAllowed {c : Context} (hlimit : 1 ≤ c.mergeLimit)
    (handler : Request → Resolution Value) :
    nextRound handler c.mergesAllowed = some (resolveText handler (c.mergesAllowed - 1) {}) := by
  have hpos : 1 ≤ c.mergesAllowed := by
    rw [Context.mergesAllowed]
    omega
  obtain ⟨left, hleft⟩ := Nat.exists_eq_add_of_le' hpos
  rw [hleft, nextRound, Nat.add_sub_cancel]

/-- A text that an expression is merged into goes on to the next round as a whole. -/
lemma run_mergeParams_of_ending {c : Context} (hparams : c.scopes.templateParams ≠ [])
    {t u : Text} {stages : List Text} {b : Bound}
    (hb : firstBound? c.scopes.templateParams t = some b) (hending : b.ending ≠ '}')
    (hmerged : mergeAll c.scopes.templateParams [] t = { stages, text? := some u })
    (resolve : Text → Resolution Value) :
    (mergeParams (some resolve) t).run c = (resolve u).run (c.enterStages stages) := by
  rw [mergeParams, run_bind_of_ok (EStateM.run_get c)]
  simp only [List.isEmpty_iff, hparams, if_false, hb, hending, false_and, and_false, hmerged]
  exact run_bind_of_ok (run_reportStages stages c)

/-- **Parameters are merged into larger expressions, and nothing else is touched.**  A draft whose
expressions fit the parameters becomes the draft with each name replaced in its place, any number of
times, if the context allows a merge.  The context is as it was, with a record for each expression,
which shows the text up to it. -/
theorem run_replaceParams_draft (c : Context) (hlimit : 1 ≤ c.mergeLimit) (w : Draft)
    (hw : w.Fits c.scopes.templateParams) :
    (replaceParams w.text).run c = .ok (.str w.merged) (c.enterStages (w.stages [])) := by
  have hmerged := Draft.mergeAll_text hw []
  have hround : (mergeParams (nextRound (handlerOf c) c.mergesAllowed) w.text).run c =
      .ok (.str w.merged) (c.enterStages (w.stages [])) := by
    cases hfound : firstBound? c.scopes.templateParams w.text with
    | none =>
      -- Without an expression the draft is what becomes of it.
      rw [mergeAll_of_none hfound] at hmerged
      obtain ⟨hstages, htext⟩ : [] = w.stages [] ∧ w.text = w.merged := by simpa using hmerged
      rw [run_mergeParams_of_none hfound, ← hstages, htext]
      simp [Context.enterStages]
    | some b =>
      obtain ⟨e, he, hending⟩ := Draft.exists_of_firstBound? hw hfound
      have hparams : c.scopes.templateParams ≠ [] := by
        intro h
        have hbound := (hw e he).bound
        rw [h] at hbound
        cases hbound
      have hagain : firstBound? (c.enterStages (w.stages [])).scopes.templateParams w.merged =
          none := by
        rw [Context.scopes_enterStages, Draft.firstBound?_merged hw]
      rw [nextRound_mergesAllowed hlimit,
        run_mergeParams_of_ending hparams hfound (hending ▸ e.ne_closing) hmerged,
        List.nil_append,
        run_resolveText_of_none _ _ (w.notMem_merged (by decide) (by decide)) hagain]
  calc (replaceParams w.text).run c
      = (restore <$> mergeParams (nextRound (handlerOf c) c.mergesAllowed) w.text).run c := rfl
    _ = .ok (.str w.merged) (c.enterStages (w.stages [])) :=
        run_restore_of_ok hround (w.notMem_merged (by decide) (by decide))

/-- A context with a parameter that is an expression and one that is not. -/
def extensionContext : Context where
  scopes :=
    { templateParams :=
        [(.str "user".toList, .str "#\x7bsession.account\x7d".toList),
         (.str "i".toList, .int 7)] }

/-- The expression `#{user.name}`, for which there is `#{session.account.name}`. -/
def userName : Extension where
  key := "user".toList
  key_plain := by decide
  ending := '.'
  ends := by decide
  ne_closing := by decide
  rest := "name".toList
  rest_plain := by decide
  inner := "session.account".toList
  inner_plain := by decide

/-- The expression `#{i+ 1}`, for which there is `#{7+ 1}`. -/
def nextIndex : Extension where
  key := "i".toList
  key_plain := by decide
  ending := '+'
  ends := by decide
  ne_closing := by decide
  rest := " 1".toList
  rest_plain := by decide
  inner := "7".toList
  inner_plain := by decide

/-- Both expressions, with literal text around them. -/
def greeting : Draft :=
  [.literal "Hi \x7d ".toList (by decide), .extension userName,
   .literal ", no. ".toList (by decide), .extension nextIndex, .literal ['!'] (by decide)]

/-- A value with braces and one without are merged in one text. -/
theorem run_replaceParams_draft_greeting :
    1 ≤ extensionContext.mergeLimit ∧ greeting.Fits extensionContext.scopes.templateParams ∧
      (replaceParams "Hi \x7d #\x7buser.name\x7d, no. #\x7bi+ 1\x7d!".toList).run
          extensionContext =
        .ok (.str "Hi \x7d #\x7bsession.account.name\x7d, no. #\x7b7+ 1\x7d!".toList)
          (extensionContext.enterStages
            ["Hi \x7d #\x7bsession.account.name\x7d".toList,
             "Hi \x7d #\x7bsession.account.name\x7d, no. #\x7b7+ 1\x7d".toList]) := by
  have hlimit : 1 ≤ extensionContext.mergeLimit := by decide
  have hplain : ∀ t : Text, t.all (fun c => !Text.isBlank c && c != ',') = true →
      ∀ c ∈ t, Text.isBlank c = false ∧ c ≠ ',' := by
    intro t ht c hc
    simpa using List.all_eq_true.1 ht c hc
  have hfits : greeting.Fits extensionContext.scopes.templateParams := by
    intro e he
    obtain rfl | rfl : e = userName ∨ e = nextIndex := by simpa [greeting] using he
    · exact ⟨rfl, .inr rfl, hplain _ rfl, rfl⟩
    · exact ⟨rfl, .inl rfl, hplain _ rfl, rfl⟩
  exact ⟨hlimit, hfits, run_replaceParams_draft extensionContext hlimit greeting hfits⟩

end Stencil.Template
