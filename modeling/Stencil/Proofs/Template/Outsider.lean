import Stencil.Proofs.Condition.Vocabulary
import Stencil.Proofs.Template.Untouched
import Stencil.Proofs.Template.Vocabulary

/-!
# Outsiders

A resolution reads the template parameters by the names that it comes across.  A name that cannot be
put together from what is at hand is never come across: if it is not in some vocabulary that the
text, the values of the context, and the sources and functions stay within, then it makes no
difference what is bound to it.  Of the sources and functions only those count whose own names are
in the vocabulary, since no other is ever asked.

An `Outsider` is such a name.  Two contexts are apart by it (`Outsider.Apart`) if they differ in
nothing else, and a resolution is blind to it (`Outsider.Blind`) if from two such contexts it comes
to the same and leaves two such contexts.  Everything that resolutions are put together from is
blind: it looks up names in the vocabulary only, for which the two contexts have the same, and it
makes texts in the vocabulary.  Both contexts have parameters, for whether there are any at all does
make a difference.  What is done to each of the texts of a value is a round (`Outsider.Round`): it
is blind, and leaves a text that has nothing to resolve as it is, so that nothing is asked of the
lists of such texts.
-/

namespace Stencil

/-! ## Mappings -/

namespace Entries

/-- What is put under one name does not concern another that is removed. -/
lemma erase_insert {name n : Text} (hne : name ≠ n) (v : Value) (entries : Entries) :
    erase n (insert (.str name) v entries) = insert (.str name) v (erase n entries) := by
  have hother : (Value.str name).isNamed n = false := by simpa [Value.isNamed] using hne
  induction entries with
  | nil => simp [insert, erase, hother]
  | cons entry rest ih =>
    obtain ⟨k, w⟩ := entry
    unfold erase at ih ⊢
    cases hk : k.isNamed name with
    | true =>
      have hkn : k.isNamed n = false := by
        cases k <;> simp_all [Value.isNamed]
      simp [insert, Value.sameKey_str, hk, hkn]
    | false => cases hkn : k.isNamed n <;> simp [insert, Value.sameKey_str, hk, hkn, ih]

/-- A name that is removed may as well not have been put in. -/
lemma erase_insert_self (n : Text) (v : Value) (entries : Entries) :
    erase n (insert (.str n) v entries) = erase n entries := by
  induction entries with
  | nil => simp [insert, erase, Value.isNamed]
  | cons entry rest ih =>
    obtain ⟨k, w⟩ := entry
    unfold erase at ih ⊢
    cases hk : k.isNamed n <;> simp [insert, Value.sameKey_str, hk, ih]

lemma mem_insert {key v : Value} {entries : Entries} {entry : Value × Value}
    (h : entry ∈ insert key v entries) : entry ∈ entries ∨ entry.2 = v := by
  induction entries with
  | nil => exact .inr (congrArg Prod.snd (List.mem_singleton.1 h))
  | cons first rest ih =>
    rw [insert] at h
    split at h
    · rcases List.mem_cons.1 h with hnew | hrest
      · exact .inr (congrArg Prod.snd hnew)
      · exact .inl (List.mem_cons_of_mem _ hrest)
    · rcases List.mem_cons.1 h with hfirst | hrest
      · exact .inl (hfirst ▸ List.mem_cons_self)
      · exact (ih hrest).imp_left (List.mem_cons_of_mem _)

lemma insert_ne_nil (key v : Value) (entries : Entries) : insert key v entries ≠ [] := by
  cases entries with
  | nil => simp [insert]
  | cons entry rest =>
    rw [insert]
    split <;> simp

end Entries

namespace Template

open Stencil.Condition
open Vocabulary (holds_get holds_none splits_standard)

/-- A text with nothing to resolve is through with its first round. -/
lemma resolveText_of_inert (h : Request → Resolution Value) (left : Nat) (t : Text)
    (ht : Text.IsInert t) : resolveText h left {} t = pure (.str t) :=
  funext fun c => run_resolveText_of_plain h left ht.start ht.opening c

/-! ## Contexts -/

/-- A context whose values are in a vocabulary, and whose sources and functions stay within it as
far as their own names are in it. -/
structure Context.Within (V : Vocabulary) (c : Context) : Prop where
  values : ∀ scope, ∀ entry ∈ c.scopes.get scope, V.Holds entry.2
  sources : ∀ keyword source, c.sources.find? keyword = some source → V.Writes keyword →
    source.Stays V
  functions : ∀ name kind, c.functions.find? name = some (.calls kind) → V.Writes name →
    kind.Stays V

/-- A name that is not in a vocabulary.  Escape marks are in it, since resolutions put them in. -/
structure Outsider where
  vocabulary : Vocabulary
  mark : vocabulary.Writes [escapeMark]
  name : Text
  foreign : ¬ vocabulary.Writes name

namespace Outsider

variable (s : Outsider)

/-- A context without the parameter. -/
def rid (c : Context) : Context := c.unassign .templateParams s.name

/-- Two contexts with parameters that differ in nothing but the one, and are otherwise within the
vocabulary. -/
structure Apart (c c' : Context) : Prop where
  same : s.rid c = s.rid c'
  within : (s.rid c).Within s.vocabulary
  bound : c.scopes.templateParams ≠ []
  bound' : c'.scopes.templateParams ≠ []

/-- Two runs that come to the same, with contexts that are apart. -/
inductive EndsAlike {α : Type} (yields : α → Prop) :
    EStateM.Result Failure Context α → EStateM.Result Failure Context α → Prop where
  | ok {a : α} {c c' : Context} (ha : yields a) (h : s.Apart c c') :
      EndsAlike yields (.ok a c) (.ok a c')
  | error {e : Failure} {c c' : Context} (h : s.Apart c c') :
      EndsAlike yields (.error e c) (.error e c')

/-- A resolution that makes nothing of the parameter, and comes to values with a property. -/
def Blind {α : Type} (yields : α → Prop) (x : Resolution α) : Prop :=
  ∀ c c', s.Apart c c' → s.EndsAlike yields (x.run c) (x.run c')

variable {s} {c c' : Context}

namespace Apart

variable (h : s.Apart c c')

include h

lemma sources_eq : c.sources = c'.sources := by
  have hsame := congrArg Context.sources h.same
  exact hsame

lemma functions_eq : c.functions = c'.functions := by
  have hsame := congrArg Context.functions h.same
  exact hsame

lemma mergeLimit_eq : c.mergeLimit = c'.mergeLimit := by
  have hsame := congrArg Context.mergeLimit h.same
  exact hsame

lemma evalDepth_eq : c.evalDepth = c'.evalDepth := by
  have hsame := congrArg Context.evalDepth h.same
  exact hsame

lemma params_eq : Entries.erase s.name c.scopes.templateParams =
    Entries.erase s.name c'.scopes.templateParams :=
  congrArg (fun c : Context => c.scopes.templateParams) h.same

lemma enter (e : Event) : s.Apart (c.enter e) (c'.enter e) :=
  ⟨congrArg (Context.enter e) h.same, ⟨h.within.values, h.within.sources, h.within.functions⟩,
    h.bound, h.bound'⟩

lemma withDepth (d d' : Nat) (hd : d = d') :
    s.Apart { c with evalDepth := d } { c' with evalDepth := d' } := by
  subst hd
  exact ⟨congrArg (fun c : Context => { c with evalDepth := d }) h.same,
    ⟨h.within.values, h.within.sources, h.within.functions⟩, h.bound, h.bound'⟩

end Apart

/-! ## Names in the vocabulary -/

lemma ne_name {name : Text} (hname : s.vocabulary.Writes name) : name ≠ s.name :=
  fun h => s.foreign (h ▸ hname)

/-- A name in the vocabulary is looked up as without the parameter. -/
lemma lookUp_rid (c : Context) (scope : Scope) {name : Text} (hname : s.vocabulary.Writes name) :
    (s.rid c).lookUp scope name = c.lookUp scope name := by
  cases scope <;> first | rfl | exact get_erase s.foreign hname

lemma Apart.lookUp_eq (h : s.Apart c c') (scope : Scope) {name : Text}
    (hname : s.vocabulary.Writes name) :
    c.lookUp scope name = c'.lookUp scope name ∧ s.vocabulary.Holds (c.lookUp scope name) := by
  rw [← lookUp_rid c scope hname, ← lookUp_rid c' scope hname, ← h.same]
  exact ⟨rfl, holds_get (h.within.values scope) name⟩

lemma rid_assign (c : Context) (scope : Scope) {name : Text} (hname : s.vocabulary.Writes name)
    (v : Value) : s.rid (c.assign scope name v) = (s.rid c).assign scope name v := by
  cases scope with
  | templateParams =>
    simp only [rid, Context.unassign, Context.assign, Scopes.get, Scopes.set,
      Entries.erase_insert (ne_name hname)]
  | _ => rfl

lemma Apart.assign (h : s.Apart c c') (scope : Scope) {name : Text} {v : Value}
    (hname : s.vocabulary.Writes name) (hv : s.vocabulary.Holds v) :
    s.Apart (c.assign scope name v) (c'.assign scope name v) := by
  have hbound : ∀ c : Context, c.scopes.templateParams ≠ [] →
      (c.assign scope name v).scopes.templateParams ≠ [] := by
    intro c hc
    cases scope with
    | templateParams => exact Entries.insert_ne_nil _ _ _
    | _ => exact hc
  refine ⟨?_, ⟨fun other entry hentry => ?_, ?_, ?_⟩, hbound c h.bound, hbound c' h.bound'⟩
  · rw [rid_assign c scope hname, rid_assign c' scope hname, h.same]
  · rw [rid_assign c scope hname] at hentry
    simp only [Context.assign, Scopes.get_set] at hentry
    split at hentry
    · rcases Entries.mem_insert hentry with hold | hnew
      · exact h.within.values scope entry hold
      · rwa [hnew]
    · exact h.within.values other entry hentry
  · exact h.within.sources
  · exact h.within.functions

/-- Texts in the vocabulary are merged with the same parameters. -/
lemma Apart.merge_eq (h : s.Apart c c') {t : Text} (ht : s.vocabulary.Writes t) :
    firstBound? c.scopes.templateParams t = firstBound? c'.scopes.templateParams t ∧
      mergeAll c.scopes.templateParams [] t = mergeAll c'.scopes.templateParams [] t := by
  rw [← firstBound?_erase s.foreign ht, ← mergeAll_erase s.foreign ht, h.params_eq,
    firstBound?_erase s.foreign ht, mergeAll_erase s.foreign ht]
  exact ⟨rfl, rfl⟩

/-- What comes of merging is in the vocabulary. -/
lemma Apart.holds_merge (h : s.Apart c c') {t : Text} (ht : s.vocabulary.Writes t) :
    (∀ b, firstBound? c.scopes.templateParams t = some b → s.vocabulary.Holds b.value) ∧
      ∀ merged, (mergeAll c.scopes.templateParams [] t).text? = some merged →
        s.vocabulary.Writes merged := by
  have hparams : ∀ entry ∈ Entries.erase s.name c.scopes.templateParams,
      s.vocabulary.Holds entry.2 := h.within.values .templateParams
  rw [← firstBound?_erase s.foreign ht, ← mergeAll_erase s.foreign ht]
  refine ⟨fun b hb => (isCut_of_firstBound? hb ht).holds hparams, fun merged hmerged => ?_⟩
  exact writes_of_mergeAll (fun _ htoken => (holds_lookUpParam hparams htoken).text) hmerged
    s.vocabulary.nil ht

/-! ## Rounds -/

variable (s) in
/-- A round of a resolution: it is blind, and through with a text that has nothing to resolve. -/
structure Round (f : Text → Resolution Value) : Prop where
  blind : ∀ t, s.vocabulary.Writes t → s.Blind s.vocabulary.Holds (f t)
  inert : ∀ t, Text.IsInert t → f t = pure (.str t)

mutual

/-- A value with nothing to resolve stays as it is. -/
lemma Round.mapTexts_of_inert {f : Text → Resolution Value} (hf : s.Round f) :
    (v : Value) → v.Inert → mapTexts f v = pure v
  | .str t, hv => hf.inert t hv
  | .list items, hv => by rw [mapTexts, hf.mapAllTexts_of_allInert items hv, map_pure]
  | .tuple items, hv => by rw [mapTexts, hf.mapAllTexts_of_allInert items hv, map_pure]
  | .none, _ => rfl
  | .bool _, _ => rfl
  | .int _, _ => rfl
  | .float _, _ => rfl
  | .dict _, _ => rfl
  | .set _, _ => rfl

lemma Round.mapAllTexts_of_allInert {f : Text → Resolution Value} (hf : s.Round f) :
    (items : List Value) → Value.AllInert items → mapAllTexts f items = pure items
  | [], _ => rfl
  | v :: vs, h => by
    rw [mapAllTexts, hf.mapTexts_of_inert v h.1, hf.mapAllTexts_of_allInert vs h.2, pure_bind,
      pure_bind]

end

/-! ## Blind resolutions -/

namespace Blind

variable {α β : Type} {yields : α → Prop} {goes : β → Prop}

protected lemma pure {a : α} (ha : yields a) : s.Blind yields (pure a : Resolution α) :=
  fun _ _ h => .ok ha h

protected lemma throw (e : Failure) : s.Blind yields (throw e : Resolution α) :=
  fun _ _ h => .error h

protected lemma bind {x : Resolution α} {f : α → Resolution β} (hx : s.Blind yields x)
    (hf : ∀ a, yields a → s.Blind goes (f a)) : s.Blind goes (x >>= f) := by
  intro c c' h
  have hfirst := hx c c' h
  rw [EStateM.run_bind, EStateM.run_bind]
  generalize x.run c = r at hfirst
  generalize x.run c' = r' at hfirst
  cases hfirst with
  | ok ha h => exact hf _ ha _ _ h
  | error h => exact .error h

protected lemma map {x : Resolution α} {f : α → β} (hx : s.Blind yields x)
    (hf : ∀ a, yields a → goes (f a)) : s.Blind goes (f <$> x) := by
  rw [map_eq_pure_bind]
  exact hx.bind fun a ha => .pure (hf a ha)

/-- What depends on the context is blind if it is the same for contexts that are apart. -/
lemma get_bind {f : Context → Resolution α}
    (hf : ∀ c c', s.Apart c c' → f c = f c' ∧ s.Blind yields (f c)) :
    s.Blind yields (get >>= f) := by
  intro c c' h
  obtain ⟨heq, hblind⟩ := hf c c' h
  have hrun : (get >>= f).run c' = (f c).run c' := by rw [heq]; rfl
  rw [hrun]
  exact hblind c c' h

lemma modify {f : Context → Context} (hf : ∀ c c', s.Apart c c' → s.Apart (f c) (f c')) :
    s.Blind (fun _ => True) (modify f : Resolution Unit) := fun c c' h => .ok trivial (hf c c' h)

lemma report (level : Level) (channel : Channel) (text : Text) :
    s.Blind (fun _ => True) (report level channel text) := .modify fun _ _ h => h.enter _

lemma script {h : Request → Resolution Value}
    (hh : ∀ q, s.vocabulary.Asks q → s.Blind s.vocabulary.Holds (h q)) {x : Script α}
    (hx : s.vocabulary.Stays yields x) : s.Blind yields (x.run h) := by
  -- By induction on the script; both runs ask the same, since they have got the same answers so
  -- far.
  induction hx with
  | value ha => exact .pure ha
  | failure e => exact .throw e
  | @ask q next hq _ _ ihv ihf =>
    intro c c' hc
    have hanswer := hh q hq c c' hc
    simp only [EStateM.run] at hanswer ⊢
    simp only [Script.run]
    generalize h q c = r at hanswer
    generalize h q c' = r' at hanswer
    cases hanswer with
    | ok hv hc => exact ihv _ hv _ _ hc
    | error hc => exact ihf _ _ _ hc

lemma checkBy {h : Request → Resolution Value}
    (hh : ∀ q, s.vocabulary.Asks q → s.Blind s.vocabulary.Holds (h q)) {condition : Text}
    (hcondition : s.vocabulary.Writes condition) :
    s.Blind (fun _ => True) (checkBy h (some condition)) := by
  refine .get_bind fun c c' hc => ⟨by rw [hc.functions_eq], ?_⟩
  exact .script hh (stays_evaluate hc.within.functions hcondition)

/-! ### Rounds -/

mutual

/-- The texts of a value are resolved blindly.  What becomes of a list is in the vocabulary, either
since it has nothing to resolve or since the vocabulary has all lists of what is in it. -/
lemma mapTexts {f : Text → Resolution Value} (hf : s.Round f) :
    (v : Value) → s.vocabulary.Holds v → s.Blind s.vocabulary.Holds (mapTexts f v)
  | .str t, hv => hf.blind t hv.text
  | .list items, hv => by
    obtain ⟨hitems, hinert | hothers⟩ := hv.list_items
    · rw [hf.mapTexts_of_inert (.list items) hinert]
      exact .pure hv
    · exact (mapAllTexts hf items hitems).map hothers
  | .tuple items, hv => by
    obtain ⟨hitems, hinert | hothers⟩ := hv.tuple_items
    · rw [hf.mapTexts_of_inert (.tuple items) hinert]
      exact .pure hv
    · exact (mapAllTexts hf items hitems).map hothers
  | .none, hv => .pure hv
  | .bool _, hv => .pure hv
  | .int _, hv => .pure hv
  | .float _, hv => .pure hv
  | .dict _, hv => .pure hv
  | .set _, hv => .pure hv

lemma mapAllTexts {f : Text → Resolution Value} (hf : s.Round f) :
    (items : List Value) → (∀ v ∈ items, s.vocabulary.Holds v) →
      s.Blind (fun items => ∀ v ∈ items, s.vocabulary.Holds v) (mapAllTexts f items)
  | [], _ => .pure (List.forall_mem_nil _)
  | v :: vs, h => by
    obtain ⟨hv, hvs⟩ := List.forall_mem_cons.1 h
    exact (mapTexts hf v hv).bind fun _ hfirst => (mapAllTexts hf vs hvs).bind fun _ hrest =>
      .pure (List.forall_mem_cons.2 ⟨hfirst, hrest⟩)

end

lemma reportStages (stages : List Text) : s.Blind (fun _ => True) (reportStages stages) := by
  induction stages with
  | nil => exact .pure trivial
  | cons stage stages ih => exact (Blind.report _ _ _).bind fun _ _ => ih

/-- Merging is blind, since expressions name parameters in the vocabulary. -/
lemma mergeParams {next : Option (Text → Resolution Value)} (hnext : ∀ f ∈ next, s.Round f)
    {t : Text} (ht : s.vocabulary.Writes t) :
    s.Blind s.vocabulary.Holds (mergeParams next t) := by
  refine .get_bind fun c c' hc => ?_
  have hempty : c.scopes.templateParams.isEmpty = false := List.isEmpty_eq_false_iff.2 hc.bound
  have hempty' : c'.scopes.templateParams.isEmpty = false := List.isEmpty_eq_false_iff.2 hc.bound'
  obtain ⟨hfirst, hmerge⟩ := hc.merge_eq ht
  refine ⟨by simp only [hempty, hempty', hfirst, hmerge, hc.mergeLimit_eq], ?_⟩
  obtain ⟨hvalue, hmerged⟩ := hc.holds_merge ht
  simp only [hempty, Bool.false_eq_true, if_false]
  cases hb : firstBound? c.scopes.templateParams t with
  | none => exact .pure (.str ht)
  | some b =>
    cases next with
    | none => exact .throw _
    | some f =>
      dsimp only
      split
      · exact mapTexts (hnext f rfl) b.value (hvalue b hb)
      · refine (Blind.reportStages _).bind fun _ _ => ?_
        split
        · exact .throw _
        · rename_i merged hm
          exact (hnext f rfl).blind merged (hmerged merged hm)

lemma settle {next : Option (Text → Resolution Value)} (hnext : ∀ f ∈ next, s.Round f) {v : Value}
    (hv : s.vocabulary.Holds v) : s.Blind s.vocabulary.Holds (settle next v) := by
  cases v with
  | str t => exact mergeParams hnext hv.text
  | _ => exact .pure hv

section Rounds

variable {h : Request → Resolution Value}
  (hh : ∀ q, s.vocabulary.Asks q → s.Blind s.vocabulary.Holds (h q))

include hh

/-- The value of a token, and the text on both sides of it. -/
lemma tokenValue {d : Delimiters} (hd : s.vocabulary.Splits d) {left right : Text}
    (ht : s.vocabulary.Writes (left.reverse ++ right)) :
    s.Blind (fun found => ∀ p ∈ found, s.vocabulary.Holds p.1 ∧
      s.vocabulary.Writes left.reverse ∧ s.vocabulary.Writes p.2) (tokenValue h d left right) := by
  unfold Template.tokenValue
  cases htoken : token? d right with
  | none => exact .pure (by simp)
  | some token =>
    obtain ⟨hleft, hkeyword, hkey, hafter⟩ := writes_of_token? hd htoken ht
    refine .get_bind fun c c' hc => ⟨by rw [hc.sources_eq], ?_⟩
    cases hs : c.sources.find? token.keyword with
    | some source =>
      refine (Blind.script hh (hc.within.sources _ _ hs hkeyword _ hkey)).bind fun v hv => .pure ?_
      simpa using ⟨hv, hleft, hafter⟩
    | none =>
      dsimp only
      split
      · exact (Blind.report _ _ _).bind fun _ _ => .pure (by simp)
      · exact .throw _

/-- The scan of a text, of which `left` is left to be searched. -/
lemma substitute {d : Delimiters} (hd : s.vocabulary.Splits d) {left right : Text}
    (ht : s.vocabulary.Writes (left.reverse ++ right)) :
    s.Blind s.vocabulary.Holds (substitute h d left right) := by
  induction left generalizing right with
  | nil =>
    refine (tokenValue hh hd ht).bind fun found hfound => ?_
    cases found with
    | none => exact .pure (.str ht)
    | some found =>
      obtain ⟨hv, -, hafter⟩ := hfound _ rfl
      refine .pure ?_
      split
      · exact hv
      · exact .str (s.vocabulary.append hv.text hafter)
  | cons ch left ih =>
    have hstep : (ch :: left).reverse ++ right = left.reverse ++ ch :: right := by simp
    unfold Template.substitute
    split
    · rename_i hescape
      obtain ⟨-, hch⟩ : _ ∧ isEscape ch = true := by simpa using hescape
      obtain ⟨hleft, -, hright⟩ := s.vocabulary.separate (isSeparator_of_isEscape hch) (hstep ▸ ht)
      exact ih (s.vocabulary.append hleft (s.vocabulary.append s.mark hright))
    · refine (tokenValue hh hd ht).bind fun found hfound => ?_
      cases found with
      | none => exact ih (hstep ▸ ht)
      | some found =>
        obtain ⟨hv, hleft, hafter⟩ := hfound _ rfl
        refine ih ?_
        have hmerged := s.vocabulary.append hleft (s.vocabulary.append hv.text hafter)
        simpa using hmerged

lemma resolveText (left : Nat) {d : Delimiters} (hd : s.vocabulary.Splits d) {t : Text}
    (ht : s.vocabulary.Writes t) : s.Blind s.vocabulary.Holds (resolveText h left d t) := by
  have hstart : ∀ t, s.vocabulary.Writes t → s.vocabulary.Writes (t.reverse.reverse ++ []) := by
    simp
  induction left generalizing d t with
  | zero => exact (substitute hh hd (hstart t ht)).bind fun v hv => .settle (by simp) hv
  | succ left ih =>
    refine (substitute hh hd (hstart t ht)).bind fun v hv => .settle ?_ hv
    rintro _ ⟨⟩
    exact ⟨fun t ht => ih splits_standard ht, resolveText_of_inert h left⟩

lemma round (left : Nat) : s.Round (Template.resolveText h left {}) :=
  ⟨fun _ ht => resolveText hh left splits_standard ht, resolveText_of_inert h left⟩

lemma nextRound (left : Nat) : ∀ f ∈ nextRound h left, s.Round f := by
  cases left with
  | zero => simp [Template.nextRound]
  | succ left =>
    rintro _ ⟨⟩
    exact round hh left

lemma resolveValueBy {v : Value} (hv : s.vocabulary.Holds v) :
    s.Blind s.vocabulary.Holds (resolveValueBy h v) := by
  refine .get_bind fun c c' hc => ?_
  have hallowed : c.mergesAllowed = c'.mergesAllowed := congrArg Int.toNat hc.mergeLimit_eq
  refine ⟨by rw [hallowed], ?_⟩
  exact (mapTexts (round hh _) v hv).map fun v => holds_restore v

lemma resolveVariablesBy {d : Delimiters} (hd : s.vocabulary.Splits d) {t : Text}
    (ht : s.vocabulary.Writes t) : s.Blind s.vocabulary.Holds (resolveVariablesBy h d t) := by
  refine .get_bind fun c c' hc => ?_
  have hallowed : c.mergesAllowed = c'.mergesAllowed := congrArg Int.toNat hc.mergeLimit_eq
  refine ⟨by rw [hallowed], ?_⟩
  exact (resolveText hh _ hd ht).map fun v => holds_restore v

lemma replaceParamsBy {t : Text} (ht : s.vocabulary.Writes t) :
    s.Blind s.vocabulary.Holds (replaceParamsBy h t) := by
  refine .get_bind fun c c' hc => ?_
  have hallowed : c.mergesAllowed = c'.mergesAllowed := congrArg Int.toNat hc.mergeLimit_eq
  refine ⟨by rw [hallowed], ?_⟩
  exact (mergeParams (nextRound hh _) ht).map fun v => holds_restore v

end Rounds

/-! ### Requests -/

lemma nested (condition : Text) {x : Resolution Value} (hx : s.Blind s.vocabulary.Holds x) :
    s.Blind s.vocabulary.Holds (nested condition x) := by
  intro c c' h
  have hiff : c.mergeLimit ≤ c.evalDepth ↔ c'.mergeLimit ≤ c'.evalDepth := by
    rw [h.mergeLimit_eq, h.evalDepth_eq]
  unfold Template.nested
  simp only [EStateM.run]
  by_cases hlimit : c.mergeLimit ≤ c.evalDepth
  · rw [if_pos hlimit, if_pos (hiff.1 hlimit), h.mergeLimit_eq]
    exact .error h
  · rw [if_neg hlimit, if_neg (mt hiff.2 hlimit)]
    have hend := hx _ _ (h.withDepth _ _ (congrArg (· + 1) h.evalDepth_eq))
    simp only [EStateM.run] at hend
    generalize x { c with evalDepth := c.evalDepth + 1 } = r at hend
    generalize x { c' with evalDepth := c'.evalDepth + 1 } = r' at hend
    cases hend with
    | ok hv h => exact .ok hv (h.withDepth _ _ (congrArg (· - 1) h.evalDepth_eq))
    | error h => exact .error (h.withDepth _ _ (congrArg (· - 1) h.evalDepth_eq))

lemma answerWith {call : Request → Resolution Value}
    (hcall : ∀ q, s.vocabulary.Asks q → s.Blind s.vocabulary.Holds (call q)) {q : Request}
    (hq : s.vocabulary.Asks q) : s.Blind s.vocabulary.Holds (answerWith call q) := by
  cases q with
  | read scope name =>
    refine .get_bind fun c c' h => ?_
    obtain ⟨heq, hv⟩ := h.lookUp_eq scope hq
    exact ⟨by rw [heq], .pure hv⟩
  | assign scope name value =>
    exact (Blind.modify fun _ _ h => h.assign scope hq.1 hq.2).bind fun _ _ => .pure holds_none
  | note message => exact (Blind.modify fun _ _ h => h.enter _).bind fun _ _ => .pure holds_none
  | report record => exact (Blind.modify fun _ _ h => h.enter _).bind fun _ _ => .pure holds_none
  | stack =>
    refine .get_bind fun c c' h => ?_
    have heq : c.stackText = c'.stackText := by
      rw [Context.stackText, Context.stackText, h.evalDepth_eq]
    exact ⟨by rw [heq], .pure (.str (hq c))⟩
  | checkNested condition => exact .nested condition (hcall _ hq)
  | resolve v => exact hcall _ hq
  | resolveMarked marks t => exact hcall _ hq
  | replaceParams t => exact hcall _ hq
  | check condition => exact hcall _ hq

lemma callBy {h : Request → Resolution Value}
    (hh : ∀ q, s.vocabulary.Asks q → s.Blind s.vocabulary.Holds (h q)) {q : Request}
    (hq : s.vocabulary.Asks q) : s.Blind s.vocabulary.Holds (callBy h q) := by
  cases q with
  | resolve v => exact .resolveValueBy hh hq
  | resolveMarked marks t => exact .resolveVariablesBy hh hq.2 hq.1
  | replaceParams t => exact .replaceParamsBy hh hq
  | check condition => exact (Blind.checkBy hh hq.1).map fun b _ => .fixed rfl (hq.2 b)
  | checkNested condition => exact (Blind.checkBy hh hq.1).map fun b _ => .fixed rfl (hq.2 b)
  | _ => exact .throw _

lemma answer (level : Nat) :
    ∀ q, s.vocabulary.Asks q → s.Blind s.vocabulary.Holds (answer level q) := by
  induction level with
  | zero => exact fun q hq => .answerWith (fun _ _ => .throw _) hq
  | succ level ih => exact fun q hq => .answerWith (fun q hq => .callBy ih hq) hq

/-- The operation is blind to a parameter that is an outsider to the text. -/
lemma replaceParams {t : Text} (ht : s.vocabulary.Writes t) :
    s.Blind s.vocabulary.Holds (replaceParams t) := by
  refine .get_bind fun c c' hc => ?_
  have hbudget : c.callBudget = c'.callBudget := by
    rw [Context.callBudget, Context.callBudget, hc.mergeLimit_eq, hc.evalDepth_eq]
  exact ⟨by rw [handlerOf, handlerOf, hbudget], .replaceParamsBy (answer _) ht⟩

end Blind

end Outsider

end Template

end Stencil
