import Stencil.Proofs.Template.Marked

/-!
# Escaped start marks are ordinary characters

An escaped `$` goes through any number of merges as an ordinary character would.  To say so, this
file compares two resolutions: of a text in which each `$` is escaped, and of the text with a fresh
letter in place of each `\$`.  The main statement, `run_resolveValue_standIn`, is that they come to
the same value or to the same failure, once the letter is replaced by `$` again, and that neither
asks a source.

The second resolution is the simple one: there is no `$` in it at all, so it only merges.  The first
one is the second with an escape mark and a `$` in place of each letter, from the first scan on
(`resolveText_spell`) until the marks are taken out at the end (`restore_mapStrings`).  In between
the two go on side by side, which is what `Parallel` says: the rounds are an induction over the
merges that are left, and a round is one by `Stencil.Proofs.Template.Marked`.
-/

namespace Stencil.Template

open Value (mapStrings mapAllStrings strings allStrings)

/-! ## Outcomes -/

/-- The result of a run that comes to an outcome in a context. -/
def ended {α : Type} : Except Failure α → Context → EStateM.Result Failure Context α
  | .ok a, c => .ok a c
  | .error e, c => .error e c

/-- A resolution comes to an outcome whatever the sources are, and does nothing besides but to add
records to the journal.  So it asks no source. -/
def Ends {α : Type} (c : Context) (x : Resolution α) (outcome : Except Failure α) : Prop :=
  ∃ records : List Record, ∀ (sources : SourceRegistry) (journal : List Event),
    x.run { c with sources, journal } =
      ended outcome { c with sources, journal := journal ++ records.map .record }

section Ends

variable {α β : Type} {c : Context}

lemma ends_pure (a : α) : Ends c (pure a : Resolution α) (.ok a) := by
  refine ⟨[], fun sources journal => ?_⟩
  rw [List.map_nil, List.append_nil]
  rfl

lemma ends_throw (e : Failure) : Ends c (throw e : Resolution α) (.error e) := by
  refine ⟨[], fun sources journal => ?_⟩
  rw [List.map_nil, List.append_nil]
  rfl

lemma Ends.bind {x : Resolution α} {f : α → Resolution β} {a : α} {outcome : Except Failure β}
    (hx : Ends c x (.ok a)) (hf : Ends c (f a) outcome) : Ends c (x >>= f) outcome := by
  obtain ⟨records, hx⟩ := hx
  obtain ⟨records', hf⟩ := hf
  refine ⟨records ++ records', fun sources journal => ?_⟩
  rw [run_bind_of_ok (hx sources journal), List.map_append, ← List.append_assoc]
  exact hf sources (journal ++ records.map .record)

lemma Ends.bind_error {x : Resolution α} {f : α → Resolution β} {e : Failure}
    (hx : Ends c x (.error e)) : Ends c (x >>= f) (.error e) := by
  obtain ⟨records, hx⟩ := hx
  refine ⟨records, fun sources journal => ?_⟩
  rw [EStateM.run_bind, hx]
  rfl

/-- What is read from a context is the same if it has neither to do with the sources nor with the
journal. -/
lemma Ends.get_bind {f : Context → Resolution α} {outcome : Except Failure α}
    (hf : ∀ sources journal, f { c with sources, journal } = f c) (h : Ends c (f c) outcome) :
    Ends c (get >>= f) outcome := by
  obtain ⟨records, h⟩ := h
  refine ⟨records, fun sources journal => ?_⟩
  rw [run_bind_of_ok (EStateM.run_get _), hf]
  exact h sources journal

lemma ends_reportStages (stages : List Text) : Ends c (reportStages stages) (.ok ()) := by
  induction stages with
  | nil => exact ends_pure ()
  | cons stage stages ih =>
    have hreport : Ends c (report .debug .resolver
        ("Merged template parameter into '".toList ++ stage ++ ['\''])) (.ok ()) :=
      ⟨[_], fun _ _ => rfl⟩
    exact hreport.bind ih

end Ends

/-! ## Values -/

/-- Changes the template that a failure of a resolution shows. -/
def mapTemplate (f : Text → Text) : Failure → Failure
  | .resolution (.unknownType keyword template) => .resolution (.unknownType keyword (f template))
  | .resolution (.unsettled template limit) => .resolution (.unsettled (f template) limit)
  | .resolution (.unterminated template) => .resolution (.unterminated (f template))
  | e => e

namespace StandIn

variable (s : StandIn)

mutual

/-- A value whose texts are without `$` and escape marks, as far as they are resolved: the value
itself, and the members of lists and rows.  Other texts within it are without the letter. -/
def Plain : Value → Prop
  | .str t => Bare t
  | .list items => AllPlain items
  | .tuple items => AllPlain items
  | v => ∀ t ∈ v.strings, s.letter ∉ t

/-- A list of such values. -/
def AllPlain : List Value → Prop
  | [] => True
  | v :: vs => Plain v ∧ AllPlain vs

end

mutual

lemma plain_of_unmarked : (v : Value) → Unmarked v →
    (∀ t ∈ v.strings, '$' ∉ t ∧ s.letter ∉ t) → s.Plain v
  | .str t, hv, h => ⟨(h t (List.mem_singleton_self t)).1, hv⟩
  | .list items, hv, h => allPlain_of_allUnmarked items hv h
  | .tuple items, hv, h => allPlain_of_allUnmarked items hv h
  | .none, _, h => fun t ht => (h t ht).2
  | .bool _, _, h => fun t ht => (h t ht).2
  | .int _, _, h => fun t ht => (h t ht).2
  | .float _, _, h => fun t ht => (h t ht).2
  | .dict _, _, h => fun t ht => (h t ht).2
  | .set _, _, h => fun t ht => (h t ht).2

lemma allPlain_of_allUnmarked : (items : List Value) → AllUnmarked items →
    (∀ t ∈ allStrings items, '$' ∉ t ∧ s.letter ∉ t) → s.AllPlain items
  | [], _, _ => trivial
  | v :: vs, hv, h => by
    obtain ⟨hfirst, hrest⟩ := List.forall_mem_append.1 h
    exact ⟨plain_of_unmarked v hv.1 hfirst, allPlain_of_allUnmarked vs hv.2 hrest⟩

end

variable {s}

lemma Clean.plain {v : Value} (hv : s.Clean v) : s.Plain v := by
  cases hv with
  | str ht => exact ht
  | other hstart hletter hv =>
    apply s.plain_of_unmarked v hv
    intro t ht
    constructor
    · intro h
      exact hstart (Value.mem_text_of_mem_strings (by decide) ht h)
    · intro h
      exact hletter (Value.mem_text_of_mem_strings s.isPrintable_letter ht h)

lemma restore_mapStrings_of_strings {v : Value} (hv : ∀ t ∈ v.strings, s.letter ∉ t)
    (hrestore : restore v = v) :
    restore (v.mapStrings s.marked) = (restore v).mapStrings s.starts := by
  calc restore (v.mapStrings s.marked)
      = restore v := congrArg restore (mapStrings_of_strings hv [escapeMark, '$'])
    _ = v := hrestore
    _ = v.mapStrings s.starts := (mapStrings_of_strings hv ['$']).symm
    _ = (restore v).mapStrings s.starts := by rw [hrestore]

variable (s)

mutual

/-- Taking the escape marks out in the end leaves a `$` in place of each letter. -/
lemma restore_mapStrings : (v : Value) → s.Plain v →
    restore (v.mapStrings s.marked) = (restore v).mapStrings s.starts
  | .str t, h => by
    rw [mapStrings, restore, restore, mapStrings, s.restoreText_marked h,
      restoreText_of_notMem h.mark]
  | .list items, h => congrArg Value.list (restoreAll_mapAllStrings items h)
  | .tuple items, h => congrArg Value.tuple (restoreAll_mapAllStrings items h)
  | .none, _ => rfl
  | .bool _, _ => rfl
  | .int _, _ => rfl
  | .float _, _ => rfl
  | .dict _, h => restore_mapStrings_of_strings h rfl
  | .set _, h => restore_mapStrings_of_strings h rfl

lemma restoreAll_mapAllStrings : (items : List Value) → s.AllPlain items →
    restoreAll (mapAllStrings s.marked items) = mapAllStrings s.starts (restoreAll items)
  | [], _ => rfl
  | v :: vs, h => by
    rw [mapAllStrings, restoreAll, restoreAll, mapAllStrings, restore_mapStrings v h.1,
      restoreAll_mapAllStrings vs h.2]

end

/-! ## Two resolutions side by side -/

/-- Two resolutions come to related values, or to the same failure but for the letter that stands in
one for what is `$` in the other. -/
inductive Parallel {α β : Type} (c : Context) (r : α → β → Prop) (x : Resolution α)
    (y : Resolution β) : Prop where
  | ok {a : α} {b : β} (hx : Ends c x (.ok a)) (hy : Ends c y (.ok b)) (h : r a b)
  | error {e : Failure} (hx : Ends c x (.error e)) (hy : Ends c y (.error (mapTemplate s.starts e)))

/-- A value and the one with an escape mark and a `$` in place of each letter. -/
def Spelled (v w : Value) : Prop := s.Plain v ∧ w = v.mapStrings s.marked

/-- Two lists of such values. -/
def AllSpelled (vs ws : List Value) : Prop := s.AllPlain vs ∧ ws = mapAllStrings s.marked vs

section Parallel

variable {s} {α α' β β' : Type} {c : Context} {r : α → α' → Prop} {q : β → β' → Prop}

lemma parallel_pure {a : α} {b : α'} (h : r a b) : s.Parallel c r (pure a) (pure b) :=
  .ok (ends_pure a) (ends_pure b) h

lemma Parallel.bind {x : Resolution α} {y : Resolution α'} {f : α → Resolution β}
    {g : α' → Resolution β'} (hxy : s.Parallel c r x y)
    (hfg : ∀ a b, r a b → s.Parallel c q (f a) (g b)) : s.Parallel c q (x >>= f) (y >>= g) := by
  cases hxy with
  | ok hx hy h =>
    cases hfg _ _ h with
    | ok hf hg h' => exact .ok (hx.bind hf) (hy.bind hg) h'
    | error hf hg => exact .error (hx.bind hf) (hy.bind hg)
  | error hx hy => exact .error hx.bind_error hy.bind_error

lemma Parallel.map {x : Resolution α} {y : Resolution α'} (f : α → β) (g : α' → β')
    (hxy : s.Parallel c r x y) (hfg : ∀ a b, r a b → q (f a) (g b)) :
    s.Parallel c q (f <$> x) (g <$> y) := by
  rw [map_eq_pure_bind, map_eq_pure_bind]
  exact hxy.bind fun a b h => parallel_pure (hfg a b h)

lemma Parallel.get_bind {f : Context → Resolution α} {g : Context → Resolution α'}
    (hf : ∀ sources journal, f { c with sources, journal } = f c)
    (hg : ∀ sources journal, g { c with sources, journal } = g c)
    (h : s.Parallel c r (f c) (g c)) : s.Parallel c r (get >>= f) (get >>= g) := by
  cases h with
  | ok hx hy h => exact .ok (hx.get_bind hf) (hy.get_bind hg) h
  | error hx hy => exact .error (hx.get_bind hf) (hy.get_bind hg)

mutual

/-- Resolving the texts of a value, if each of them is resolved side by side. -/
lemma parallel_mapTexts {f g : Text → Resolution Value}
    (hfg : ∀ t, Bare t → s.Parallel c s.Spelled (f t) (g (s.marked t))) :
    (v : Value) → s.Plain v →
      s.Parallel c s.Spelled (mapTexts f v) (mapTexts g (v.mapStrings s.marked))
  | .str t, h => hfg t h
  | .list items, h => (parallel_mapAllTexts hfg items h).map Value.list Value.list
      fun _ _ hvs => ⟨hvs.1, congrArg Value.list hvs.2⟩
  | .tuple items, h => (parallel_mapAllTexts hfg items h).map Value.tuple Value.tuple
      fun _ _ hvs => ⟨hvs.1, congrArg Value.tuple hvs.2⟩
  | .none, h => parallel_pure ⟨h, rfl⟩
  | .bool _, h => parallel_pure ⟨h, rfl⟩
  | .int _, h => parallel_pure ⟨h, rfl⟩
  | .float _, h => parallel_pure ⟨h, rfl⟩
  | .dict _, h => parallel_pure ⟨h, rfl⟩
  | .set _, h => parallel_pure ⟨h, rfl⟩

lemma parallel_mapAllTexts {f g : Text → Resolution Value}
    (hfg : ∀ t, Bare t → s.Parallel c s.Spelled (f t) (g (s.marked t))) :
    (items : List Value) → s.AllPlain items →
      s.Parallel c s.AllSpelled (mapAllTexts f items)
        (mapAllTexts g (mapAllStrings s.marked items))
  | [], _ => parallel_pure ⟨trivial, rfl⟩
  | v :: vs, h => by
    refine (parallel_mapTexts hfg v h.1).bind fun a b hab => ?_
    refine (parallel_mapAllTexts hfg vs h.2).bind fun as bs habs => ?_
    refine parallel_pure ⟨⟨hab.1, habs.1⟩, ?_⟩
    rw [hab.2, habs.2, mapAllStrings]

end

end Parallel

/-! ## Rounds -/

/-- A text with a backslash or an escape mark before each `$` that replaces a letter is only
merged. -/
lemma resolveText_spell (handler : Request → Resolution Value) (left : Nat) {mark : Char}
    (hescape : isEscape mark = true) {t : Text} (ht : Bare t) :
    resolveText handler left {} (Text.spell s.letter [mark, '$'] t) =
      mergeParams (nextRound handler left) (s.marked t) := by
  have hsweep := sweep_putBeforeStarts handler hescape (s.starts t) [] []
  rw [List.append_nil, List.append_nil, s.putBeforeStarts_starts mark ht,
    s.putBeforeStarts_starts escapeMark ht] at hsweep
  rw [← Marks.delimiters_standard, resolveText_eq, Marks.delimiters_standard, hsweep, sweep,
    pure_bind, settle, marked]

/-- The next rounds of two resolutions, if there are any. -/
inductive ParallelNext (c : Context) :
    Option (Text → Resolution Value) → Option (Text → Resolution Value) → Prop where
  | none : ParallelNext c none none
  | some {f g : Text → Resolution Value}
      (hfg : ∀ t, Bare t → s.Parallel c s.Spelled (f t) (g (s.marked t))) :
      ParallelNext c (some f) (some g)

section Rounds

variable {s} {c : Context} (hp : s.Fresh c.scopes.templateParams)

include hp

/-- Where there are parameters, the expressions found in a marked text are those of the text. -/
lemma search_marked (t : Text) :
    (if c.scopes.templateParams.isEmpty then none
        else firstBound? c.scopes.templateParams (s.marked t)) =
      (if c.scopes.templateParams.isEmpty then none
        else firstBound? c.scopes.templateParams t).map s.markedBound := by
  rw [hp.firstBound?_marked]
  split
  · rfl
  · rfl

/-- Merging all of a text and of the marked text, and going on with the results. -/
lemma parallel_mergeAll {f g : Text → Resolution Value}
    (hfg : ∀ t, Bare t → s.Parallel c s.Spelled (f t) (g (s.marked t))) {t : Text} (ht : Bare t) :
    s.Parallel c s.Spelled
      (do
        reportStages (mergeAll c.scopes.templateParams [] t).stages
        match (mergeAll c.scopes.templateParams [] t).text? with
        | none => throw (.resolution (.unterminated (restoreText t)))
        | some t => f t)
      (do
        reportStages (mergeAll c.scopes.templateParams [] (s.marked t)).stages
        match (mergeAll c.scopes.templateParams [] (s.marked t)).text? with
        | none => throw (.resolution (.unterminated (restoreText (s.marked t))))
        | some t => g t) := by
  have hmerged := hp.mergeAll_marked ht []
  rw [marked_nil] at hmerged
  rw [hmerged]
  have hreport : s.Parallel c (fun _ _ => True)
      (reportStages (mergeAll c.scopes.templateParams [] t).stages)
      (reportStages ((mergeAll c.scopes.templateParams [] t).stages.map s.marked)) :=
    .ok (ends_reportStages _) (ends_reportStages _) trivial
  refine hreport.bind fun _ _ _ => ?_
  cases htext : (mergeAll c.scopes.templateParams [] t).text? with
  | none =>
    simp only [Option.map_none, s.restoreText_marked ht, restoreText_of_notMem ht.mark]
    exact .error (ends_throw _) (ends_throw _)
  | some u => exact hfg u (hp.bare_of_mergeAll bare_nil ht htext)

/-- One merge of a text and of the marked text. -/
lemma parallel_mergeParams {next next' : Option (Text → Resolution Value)}
    (hnext : s.ParallelNext c next next') {t : Text} (ht : Bare t) :
    s.Parallel c s.Spelled (mergeParams next t) (mergeParams next' (s.marked t)) := by
  refine Parallel.get_bind (fun _ _ => rfl) (fun _ _ => rfl) ?_
  simp only [search_marked hp]
  cases hfound : (if c.scopes.templateParams.isEmpty then none
      else firstBound? c.scopes.templateParams t) with
  | none => exact parallel_pure ⟨ht, rfl⟩
  | some b =>
    have hsome : firstBound? c.scopes.templateParams t = some b := by
      split at hfound
      · cases hfound
      · exact hfound
    simp only [Option.map_some]
    cases hnext with
    | none =>
      simp only [s.restoreText_marked ht, restoreText_of_notMem ht.mark]
      exact .error (ends_throw _) (ends_throw _)
    | some hfg =>
      obtain ⟨-, hvalue, -, -⟩ := hp.clean_of_firstBound? ht hsome
      simp only [markedBound, s.isEmpty_marked]
      split
      · -- The expression is the whole text, and its value is resolved in place of a merged text.
        exact parallel_mapTexts hfg b.value hvalue.plain
      · exact parallel_mergeAll hp hfg ht

/-- All rounds that are left. -/
lemma parallel_nextRound (handler : Request → Resolution Value) (left : Nat) :
    s.ParallelNext c (nextRound handler left) (nextRound handler left) := by
  induction left with
  | zero => exact .none
  | succ left ih =>
    have hescape : isEscape escapeMark = true := rfl
    refine .some fun t ht => ?_
    rw [resolveText_of_notMem handler left ht.start, marked,
      s.resolveText_spell handler left hescape ht]
    exact parallel_mergeParams hp ih ht

/-- A text, and the one with a backslash and a `$` in place of each letter. -/
lemma parallel_resolveValue {t : Text} (ht : Bare t) :
    s.Parallel c (fun v w => w = v.mapStrings s.starts) (resolveValue (.str t))
      (resolveValue (.str (Text.spell s.letter ['\\', '$'] t))) := by
  -- How deep calls may go depends on neither the sources nor the journal.
  have hhandler : ∀ sources journal, handlerOf { c with sources, journal } = handlerOf c := by
    intro sources journal
    rw [handlerOf, handlerOf]
    rfl
  refine Parallel.get_bind (fun sources journal => by rw [hhandler])
    (fun sources journal => by rw [hhandler]) ?_
  refine Parallel.get_bind (fun _ _ => rfl) (fun _ _ => rfl) ?_
  have hescape : isEscape '\\' = true := rfl
  have hround := parallel_mergeParams hp (parallel_nextRound hp (handlerOf c) c.mergesAllowed) ht
  rw [← resolveText_of_notMem (handlerOf c) c.mergesAllowed ht.start,
    ← s.resolveText_spell (handlerOf c) c.mergesAllowed hescape ht] at hround
  refine hround.map restore restore fun v w hvw => ?_
  rw [hvw.2, s.restore_mapStrings v hvw.1]

end Rounds

/-! ## Escaped texts -/

/-- The text with the letter in place of each `\$`. -/
def standFor : Text → Text
  | '\\' :: '$' :: t => s.letter :: standFor t
  | c :: t => c :: standFor t
  | [] => []

end StandIn

/-- Each `$` of a text stands directly behind a backslash. -/
def StartsEscaped (t : Text) : Prop :=
  ∀ before after, t = before ++ '$' :: after → before.getLast? = some '\\'

instance decidableStartsEscaped (t : Text) : Decidable (StartsEscaped t) :=
  decidable_of_iff (∀ i < t.length, t[i]? = some '$' → (t.take i).getLast? = some '\\') (by
    constructor
    · rintro h before after rfl
      simpa using h before.length (by simp) (by simp)
    · intro h i hi hget
      have hdrop : t.drop i = '$' :: t.drop (i + 1) := by
        rw [List.drop_eq_getElem_cons hi]
        rw [List.getElem?_eq_getElem hi] at hget
        rw [Option.some.inj hget]
      exact h (t.take i) (t.drop (i + 1)) (by rw [← hdrop, List.take_append_drop]))

lemma StartsEscaped.of_append {s t : Text} (h : StartsEscaped (s ++ t))
    (hs : ∀ after, t = '$' :: after → s.getLast? ≠ some '\\') : StartsEscaped t := by
  intro before after hsplit
  have hlast : (s ++ before).getLast? = some '\\' :=
    h (s ++ before) after (by rw [hsplit, List.append_assoc])
  rcases List.eq_nil_or_concat before with rfl | ⟨front, d, rfl⟩
  · rw [List.append_nil] at hlast
    exact absurd hlast (hs after hsplit)
  · simpa using hlast

namespace StandIn

variable (s : StandIn)

/-- With the letter in place of each escaped `$` there is no `$` left, and the text is what the
letter spelled as a backslash and a `$` gives. -/
lemma spell_standFor {t : Text} (hmark : escapeMark ∉ t) (hstarts : StartsEscaped t)
    (hletter : s.letter ∉ t) :
    Bare (s.standFor t) ∧ Text.spell s.letter ['\\', '$'] (s.standFor t) = t := by
  fun_induction standFor s t with
  | case1 t ih =>
    obtain ⟨-, -, hmark⟩ : escapeMark ≠ '\\' ∧ escapeMark ≠ '$' ∧ escapeMark ∉ t := by
      simpa using hmark
    obtain ⟨-, -, hletter⟩ : s.letter ≠ '\\' ∧ s.letter ≠ '$' ∧ s.letter ∉ t := by
      simpa using hletter
    have hrest : StartsEscaped t :=
      StartsEscaped.of_append (s := ['\\', '$']) hstarts fun _ _ => by simp
    obtain ⟨hbare, hspell⟩ := ih hmark hrest hletter
    have hplain : s.letter ≠ '$' ∧ s.letter ≠ escapeMark :=
      ⟨s.ne (by decide), s.ne (by decide +kernel)⟩
    rw [Text.spell_self, hspell]
    exact ⟨bare_cons.2 ⟨hplain, hbare⟩, rfl⟩
  | case2 c t hne ih =>
    obtain ⟨hc, hmark⟩ : escapeMark ≠ c ∧ escapeMark ∉ t := by simpa using hmark
    obtain ⟨hcl, hletter⟩ : s.letter ≠ c ∧ s.letter ∉ t := by simpa using hletter
    have hstart : c ≠ '$' := by
      rintro rfl
      have hlast := hstarts [] t rfl
      cases hlast
    have hrest : StartsEscaped t := by
      refine StartsEscaped.of_append (s := [c]) hstarts fun after ht hslash => ?_
      obtain rfl : c = '\\' := by simpa using hslash
      exact hne after rfl ht
    obtain ⟨hbare, hspell⟩ := ih hmark hrest hletter
    rw [Text.spell_of_ne (Ne.symm hcl), hspell]
    exact ⟨bare_cons.2 ⟨⟨hstart, Ne.symm hc⟩, hbare⟩, rfl⟩
  | case3 => exact ⟨bare_nil, rfl⟩

end StandIn

/-- The outcome of a resolution, with a `$` in place of each letter. -/
def StandIn.outcome (s : StandIn) : Except Failure Value → Except Failure Value
  | .ok v => .ok (v.mapStrings s.starts)
  | .error e => .error (mapTemplate s.starts e)

/-- **An escaped `$` is an ordinary character through every merge.**  In a context whose parameters
have no `$`, no escape marks and not the letter, resolving a text in which each `$` is escaped comes
to what resolving the text with the letter in place of each `\$` comes to, with the letter replaced
by `$` in all texts of the value, or in the template that the failure shows.  Either resolution
comes to that whatever the sources are, and only adds records to the journal: at no depth of merges
does it ask a source. -/
theorem run_resolveValue_standIn (s : StandIn) (t : Text) (hmark : escapeMark ∉ t)
    (hstarts : StartsEscaped t) (hletter : s.letter ∉ t) (c : Context)
    (hparams : s.Fresh c.scopes.templateParams) :
    ∃ (outcome : Except Failure Value) (records records' : List Record),
      ∀ (sources : SourceRegistry) (journal : List Event),
        (resolveValue (.str (s.standFor t))).run { c with sources, journal } =
            ended outcome { c with sources, journal := journal ++ records.map .record } ∧
          (resolveValue (.str t)).run { c with sources, journal } =
            ended (s.outcome outcome)
              { c with sources, journal := journal ++ records'.map .record } := by
  obtain ⟨hbare, hspell⟩ := s.spell_standFor hmark hstarts hletter
  have hparallel := StandIn.parallel_resolveValue hparams hbare
  rw [hspell] at hparallel
  cases hparallel with
  | @ok v w hx hy h =>
    obtain ⟨records, hx⟩ := hx
    obtain ⟨records', hy⟩ := hy
    subst h
    exact ⟨.ok v, records, records',
      fun sources journal => ⟨hx sources journal, hy sources journal⟩⟩
  | @error e hx hy =>
    obtain ⟨records, hx⟩ := hx
    obtain ⟨records', hy⟩ := hy
    exact ⟨.error e, records, records',
      fun sources journal => ⟨hx sources journal, hy sources journal⟩⟩

/-- A parameter that names another one, and the other one, a list. -/
def listContext : Context where
  scopes := { templateParams := [(.str ['a'], .str "#\x7bb\x7d".toList),
    (.str ['b'], .list [.str ['k'], .none])] }

/-- The letter `q`. -/
def letterQ : StandIn where
  letter := 'q'
  alphanumeric := by decide

lemma letterQ_fresh : letterQ.Fresh listContext.scopes.templateParams := by
  constructor
  · intro name v h
    simp only [listContext, List.mem_cons, Prod.mk.injEq, Value.str.injEq, List.not_mem_nil,
      or_false] at h
    rcases h with ⟨rfl, -⟩ | ⟨rfl, -⟩ <;> decide
  · intro key v h
    simp only [listContext, List.mem_cons, Prod.mk.injEq, List.not_mem_nil, or_false] at h
    rcases h with ⟨-, rfl⟩ | ⟨-, rfl⟩
    · exact ⟨by decide, by unfold Unmarked; decide⟩
    · exact ⟨by decide, by simp [Unmarked, AllUnmarked, escapeMark]⟩

/-- Escaped start marks in front of an expression, in one that merges twice, and in a default.  The
text of the value has a list in it, and every `$`. -/
theorem run_resolveValue_standIn_merged :
    escapeMark ∉ "\\$#\x7ba.\\$\x7d#\x7bz,\\$\x7d".toList ∧
      StartsEscaped "\\$#\x7ba.\\$\x7d#\x7bz,\\$\x7d".toList ∧
      letterQ.letter ∉ "\\$#\x7ba.\\$\x7d#\x7bz,\\$\x7d".toList ∧
      letterQ.Fresh listContext.scopes.templateParams ∧
      (∃ (outcome : Except Failure Value) (records records' : List Record),
        ∀ (sources : SourceRegistry) (journal : List Event),
          (resolveValue (.str "q#\x7ba.q\x7d#\x7bz,q\x7d".toList)).run
              { listContext with sources, journal } =
            ended outcome { listContext with sources, journal := journal ++ records.map .record } ∧
          (resolveValue (.str "\\$#\x7ba.\\$\x7d#\x7bz,\\$\x7d".toList)).run
              { listContext with sources, journal } =
            ended (letterQ.outcome outcome)
              { listContext with sources, journal := journal ++ records'.map .record }) ∧
      (match (resolveValue (.str "\\$#\x7ba.\\$\x7d#\x7bz,\\$\x7d".toList)).run listContext with
        | .ok v _ => v.text
        | .error _ _ => []) = "$#\x7b['k', None].$\x7d$".toList := by
  have hmark : escapeMark ∉ "\\$#\x7ba.\\$\x7d#\x7bz,\\$\x7d".toList := by decide
  have hstarts : StartsEscaped "\\$#\x7ba.\\$\x7d#\x7bz,\\$\x7d".toList := by decide
  have hletter : letterQ.letter ∉ "\\$#\x7ba.\\$\x7d#\x7bz,\\$\x7d".toList := by decide
  refine ⟨hmark, hstarts, hletter, letterQ_fresh, ?_, by decide +kernel⟩
  exact run_resolveValue_standIn letterQ _ hmark hstarts hletter listContext letterQ_fresh

end Stencil.Template
