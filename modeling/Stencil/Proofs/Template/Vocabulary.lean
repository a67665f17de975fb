import Stencil.Proofs.Script.Vocabulary
import Stencil.Proofs.Template.Expansion

/-!
# Templates within a vocabulary

Resolution takes texts apart and puts them together again: tokens are cut out of a template,
expressions out of the result, and their values are put in.  If the template and the values are in a
vocabulary, then so are all of these pieces, and what is made of them (`writes_of_token?`,
`isCut_of_firstBound?`, `writes_of_mergeAll`, `holds_restore`).  Hence parameters with other names
are never asked for (`firstBound?_erase`, `mergeAll_erase`).

Some of the built-in sources bring in texts of their own.  They stay within a vocabulary that has
these (`Vocabulary.TakesSource`, `stays_of_builtinSources`).
-/

namespace Stencil

open Vocabulary (writes_cons writes_separated writes_of_cut? writes_of_partition writes_trim
  holds_get holds_none)

variable {V : Vocabulary}

/-- A vocabulary that has what the built-in source of a type keyword brings in. -/
structure Vocabulary.TakesSource (V : Vocabulary) (keyword : Text) : Prop where
  eval : keyword = "eval".toList → V.ShowsBools
  boolean : keyword = "boolean".toList → V.ShowsBools
  int : keyword = "int".toList → ∀ key n, V.Writes key → Integer.read key = .ok n → V.Shows (.int n)
  stackTrace : keyword = "stackTrace".toList →
    V.Writes ['\n'] ∧ ∀ c : Template.Context, V.Writes c.stackText

namespace Template

/-! ## Tokens -/

lemma append_of_skip {closing t before after : Text} {c : Char} {n : Nat}
    {found : Option (Text × Text)}
    (h : found.map (fun (b, a) => (c :: t.take n ++ b, a)) = some (before, after))
    (hfound : ∀ b, found = some (b, after) → b ++ closing ++ after = t.drop n) :
    before ++ closing ++ after = c :: t := by
  obtain ⟨⟨b, a⟩, rfl, heq⟩ := Option.map_eq_some_iff.1 h
  obtain ⟨rfl, rfl⟩ := Prod.mk.inj heq
  calc c :: t.take n ++ b ++ closing ++ a = c :: (t.take n ++ (b ++ closing ++ a)) := by simp
    _ = c :: t := by rw [hfound b rfl, List.take_append_drop]

/-- The two sides of the closing mark make up the text. -/
lemma append_of_matchingEnd {opening closing : Text} {depth : Nat} {t before after : Text}
    (h : matchingEnd opening closing depth t = some (before, after)) :
    before ++ closing ++ after = t := by
  fun_induction matchingEnd opening closing depth t generalizing before with
  | case1 => cases h
  | case2 =>
    rename_i ih
    exact append_of_skip h fun b hb => ih _ _ hb
  | case3 =>
    rename_i hprefix _ _
    cases h
    obtain ⟨rest, hrest⟩ := List.isPrefixOf_iff_prefix.1 hprefix
    rw [← hrest, List.drop_left, List.nil_append]
  | case4 =>
    rename_i ih
    exact append_of_skip h fun b hb => ih _ _ hb
  | case5 =>
    rename_i ih
    exact append_of_skip h fun b hb => ih _ _ hb

/-- The parts of a token are pieces of the text, which starts with the token. -/
lemma writes_of_token? {d : Delimiters} (hd : V.Splits d) {before t : Text} {token : Token}
    (h : token? d t = some token) (ht : V.Writes (before ++ t)) :
    V.Writes before ∧ V.Writes token.keyword ∧ V.Writes token.key ∧ V.Writes token.after := by
  unfold token? at h
  split at h
  · rename_i hstart
    split at h
    · cases h
    · rename_i keyword inner hcut
      obtain ⟨⟨key, after⟩, hend, rfl⟩ := Option.map_eq_some_iff.1 h
      obtain ⟨rest, rfl⟩ := List.isPrefixOf_iff_prefix.1 hstart
      rw [List.drop_left] at hcut
      rw [← List.append_assoc] at ht
      obtain ⟨hbefore, hrest⟩ := hd.start _ _ ht
      rw [← Text.append_of_cut? hcut] at hrest
      obtain ⟨hkeyword, hinner⟩ := hd.opening _ _ hrest
      rw [← append_of_matchingEnd hend] at hinner
      exact ⟨hbefore, hkeyword, hd.closing _ _ hinner⟩
  · cases h

/-! ## Escapes -/

lemma isSeparator_of_isEscape {c : Char} (hc : isEscape c = true) : isSeparator c = true := by
  obtain rfl | rfl : c = '\\' ∨ c = escapeMark := by simpa [isEscape] using hc
  · exact isSeparator_of_mem (by decide)
  · exact isSeparator_of_mem (by decide)

lemma writes_restoreText {t : Text} (ht : V.Writes t) : V.Writes (restoreText t) := by
  refine Vocabulary.writes_filter (fun c hc => ?_) ht
  obtain rfl : c = escapeMark := by simpa using hc
  exact isSeparator_of_mem (by decide)

mutual

/-- Values that resolution leaves alone have no escape marks. -/
lemma unmarked_of_inert : (v : Value) → v.Inert → Unmarked v
  | .str _, h => h.mark
  | .list items, h => allUnmarked_of_allInert items h
  | .tuple items, h => allUnmarked_of_allInert items h
  | .none, _ => trivial
  | .bool _, _ => trivial
  | .int _, _ => trivial
  | .float _, _ => trivial
  | .dict _, _ => trivial
  | .set _, _ => trivial

lemma allUnmarked_of_allInert : (items : List Value) → Value.AllInert items → AllUnmarked items
  | [], _ => trivial
  | v :: vs, h => ⟨unmarked_of_inert v h.1, allUnmarked_of_allInert vs h.2⟩

end

mutual

/-- Taking out escape marks brings nothing in. -/
lemma holds_restore : (v : Value) → V.Holds v → V.Holds (restore v)
  | .str _, h => .str (writes_restoreText h.text)
  | .list items, h => by
    obtain ⟨hitems, hinert | hothers⟩ := h.list_items
    · rw [restore_of_unmarked _ (unmarked_of_inert (.list items) hinert)]
      exact h
    · exact hothers _ (holds_restoreAll items hitems)
  | .tuple items, h => by
    obtain ⟨hitems, hinert | hothers⟩ := h.tuple_items
    · rw [restore_of_unmarked _ (unmarked_of_inert (.tuple items) hinert)]
      exact h
    · exact hothers _ (holds_restoreAll items hitems)
  | .none, h => h
  | .bool _, h => h
  | .int _, h => h
  | .float _, h => h
  | .dict _, h => h
  | .set _, h => h

lemma holds_restoreAll : (items : List Value) → (∀ v ∈ items, V.Holds v) →
    ∀ v ∈ restoreAll items, V.Holds v
  | [], _ => List.forall_mem_nil _
  | v :: vs, h => by
    obtain ⟨hv, hvs⟩ := List.forall_mem_cons.1 h
    exact List.forall_mem_cons.2 ⟨holds_restore v hv, holds_restoreAll vs hvs⟩

end

/-! ## Expressions -/

lemma isSeparator_of_endsName {c : Char} (hc : endsName c = true) : isSeparator c = true := by
  have hends : nameEnds ⊆ separators := by decide
  exact isSeparator_of_mem (hends (List.contains_iff_mem.1 hc))

section Search

variable {params : Entries}

variable (V params) in
/-- A bound expression that is cut out of a text in the vocabulary. -/
structure Bound.IsCut (b : Bound) : Prop where
  before : V.Writes b.before
  marks : V.Writes ['#', '{']
  ending : V.Writes [b.ending]
  after : V.Writes b.after
  value : ∃ token, V.Writes token ∧ b.value = lookUpParam params token

/-- What the search finds. -/
lemma isCut_of_firstBound? {t : Text} {b : Bound} (h : firstBound? params t = some b)
    (ht : V.Writes t) : b.IsCut V params := by
  obtain ⟨name, rfl, hends, hvalue⟩ := firstBound?_eq_some params h
  obtain ⟨hbefore, hsharp, hinner⟩ := V.separate (by decide) ht
  obtain ⟨hopening, hinner⟩ := (writes_cons (by decide)).1 hinner
  obtain ⟨hname, hending, hafter⟩ := V.separate (isSeparator_of_endsName hends) hinner
  exact ⟨hbefore, V.append hsharp hopening, hending, hafter, _, writes_trim hname, hvalue⟩

lemma writes_bareText {v : Value} (hv : V.Writes v.text) : V.Writes (bareText v) :=
  Vocabulary.writes_dropEnd (by decide) (Vocabulary.writes_dropStart (by decide) hv)

/-- What merging comes to. -/
lemma writes_of_mergeAll
    (hvalue : ∀ token, V.Writes token → V.Writes (lookUpParam params token).text)
    {done t merged : Text} (h : (mergeAll params done t).text? = some merged)
    (hdone : V.Writes done) (ht : V.Writes t) : V.Writes merged := by
  -- By recursion along the merging: what is merged is put together from what is in the vocabulary.
  fun_induction mergeAll params done t with
  | case1 done t =>
    cases h
    exact V.append hdone ht
  | case2 done t b hb _ ih =>
    have hcut := isCut_of_firstBound? hb ht
    obtain ⟨token, htoken, hv⟩ := hcut.value
    have htext : V.Writes b.value.text := hv ▸ hvalue token htoken
    exact ih h (V.append (V.append hdone hcut.before) htext) hcut.after
  | case3 => cases h
  | case4 done t b hb _ middle after hclosing done' rest ih =>
    have hcut := isCut_of_firstBound? hb ht
    obtain ⟨token, htoken, hv⟩ := hcut.value
    have hbare : V.Writes (bareText b.value) := writes_bareText (hv ▸ hvalue token htoken)
    have hafter := hcut.after
    rw [← Text.append_of_cut? hclosing, List.append_assoc] at hafter
    obtain ⟨hmiddle, hclosing, hrest⟩ := V.separate (by decide) hafter
    have hinner : V.Writes (b.ending :: middle ++ ['}']) :=
      V.append (V.append hcut.ending hmiddle) hclosing
    have hmerged : V.Writes ('#' :: '{' :: bareText b.value ++ (b.ending :: middle ++ ['}'])) :=
      V.append (V.append hcut.marks hbare) hinner
    have hdone' : done' = done ++ b.before ++
        ('#' :: '{' :: bareText b.value ++ (b.ending :: middle ++ ['}'])) := by simp [done']
    exact ih h (hdone' ▸ V.append (V.append hdone hcut.before) hmerged) hrest

lemma holds_lookUpParam (hparams : ∀ entry ∈ params, V.Holds entry.2) {token : Text}
    (htoken : V.Writes token) : V.Holds (lookUpParam params token) := by
  unfold lookUpParam
  cases hsplit : Text.partition ',' token with | _ name default?
  have hdefault := (writes_of_partition (by decide) hsplit htoken).2
  dsimp only
  split
  · exact .str (writes_trim (hdefault _ rfl))
  · exact holds_get hparams _

lemma Bound.IsCut.holds {b : Bound} (h : b.IsCut V params)
    (hparams : ∀ entry ∈ params, V.Holds entry.2) : V.Holds b.value := by
  obtain ⟨token, htoken, hvalue⟩ := h.value
  exact hvalue ▸ holds_lookUpParam hparams htoken

end Search

/-! ## Parameters whose names are not in the vocabulary -/

section Erase

variable {n : Text} (hn : ¬ V.Writes n) {params : Entries}

include hn

lemma get_erase {name : Text} (hname : V.Writes name) :
    Entries.get (Entries.erase n params) name = Entries.get params name := by
  have hne : name ≠ n := fun h => hn (h ▸ hname)
  have hother : ∀ entry : Value × Value,
      (!entry.1.isNamed n && entry.1.isNamed name) = entry.1.isNamed name := by
    intro entry
    cases entry.1 with
    | str t => by_cases ht : t = name <;> simp_all [Value.isNamed]
    | _ => rfl
  simp only [Entries.get, Entries.find?, Entries.erase, List.find?_filter, Bool.decide_and,
    Bool.decide_eq_true, hother]

lemma lookUpParam_erase {token : Text} (htoken : V.Writes token) :
    lookUpParam (Entries.erase n params) token = lookUpParam params token := by
  cases hsplit : Text.partition ',' token with | _ name default?
  have hname := (writes_of_partition (by decide) hsplit htoken).1
  simp only [lookUpParam, hsplit, get_erase hn (writes_trim hname)]

/-- The search passes over a parameter that no expression can name. -/
lemma firstBound?_erase {t : Text} (ht : V.Writes t) :
    firstBound? (Entries.erase n params) t = firstBound? params t := by
  induction hlength : t.length using Nat.strong_induction_on generalizing t with
  | _ k ih =>
    rw [firstBound?_eq_bind, firstBound?_eq_bind params]
    cases hx : expression? t with
    | none => rfl
    | some x =>
      obtain ⟨before, name, ending, after⟩ := x
      obtain ⟨rfl, hends⟩ := expression?_eq_some hx
      obtain ⟨-, -, hinner⟩ := V.separate (by decide) ht
      obtain ⟨-, hinner⟩ := (writes_cons (by decide)).1 hinner
      -- The name that is looked up is cut out of the text, and so it is not the one removed.
      obtain ⟨hname, -, hafter⟩ := V.separate (isSeparator_of_endsName hends) hinner
      have hlt : after.length < k := by
        rw [← hlength]
        simp
        omega
      simp only [Option.bind_some, lookUpParam_erase hn (writes_trim hname), ih _ hlt hafter rfl]

/-- Merging is the same without it. -/
lemma mergeAll_erase {done t : Text} (ht : V.Writes t) :
    mergeAll (Entries.erase n params) done t = mergeAll params done t := by
  fun_induction mergeAll params done t with
  | case1 done t hnone => exact mergeAll_of_none ((firstBound?_erase hn ht).trans hnone)
  | case2 done t b hb hending ih =>
    have hfound := (firstBound?_erase hn ht).trans hb
    rw [mergeAll_of_closing hfound hending, ih (isCut_of_firstBound? hb ht).after]
  | case3 done t b hb hending hcut =>
    have hfound := (firstBound?_erase hn ht).trans hb
    rw [mergeAll_of_ending hfound hending, hcut]
  | case4 done t b hb hending middle after hcut =>
    rename_i done' rest ih
    have hfound := (firstBound?_erase hn ht).trans hb
    have hafter := (isCut_of_firstBound? hb ht).after
    have hrest := ih (writes_of_cut? (List.cons_ne_nil _ _) (by decide) hcut hafter).2
    rw [mergeAll_of_ending hfound hending, hcut]
    exact congrArg (fun rest : Merged => Merged.mk (done' :: rest.stages) rest.text?) hrest

end Erase

/-! ## Sources -/

variable (V) in
/-- A source whose scripts stay within the vocabulary for every key in it. -/
def Source.Stays (source : Source) : Prop := ∀ key, V.Writes key → V.Stays V.Holds (source key)

lemma append_of_placeholder? {t digits after : Text}
    (h : placeholder? t = some (digits, after)) : digits ++ '}' :: after = t := by
  unfold placeholder? at h
  split at h
  · rename_i rest hdrop
    split at h
    · cases h
    · cases h
      rw [← hdrop, List.takeWhile_append_dropWhile]
  · cases h

/-- A message with arguments put in, where `done` is the text before it. -/
lemma writes_of_formatMessage {arguments : List Text} (harguments : ∀ a ∈ arguments, V.Writes a)
    {done message t : Text} (h : formatMessage arguments message = .ok t)
    (hmessage : V.Writes (done ++ message)) : V.Writes (done ++ t) := by
  fun_induction formatMessage arguments message generalizing done t with
  | case1 =>
    cases h
    exact hmessage
  | case2 c message _ rest hrest ih =>
    cases h
    rw [List.append_cons] at hmessage ⊢
    exact ih hrest hmessage
  | case5 c message digits after hplace index hindex rest hrest ih =>
    cases h
    obtain ⟨rfl, hfound⟩ : c = '{' ∧ placeholder? message = some (digits, after) := by
      split at hplace
      · rename_i hbrace
        exact ⟨hbrace, hplace⟩
      · cases hplace
    obtain ⟨hdone, hopening, htail⟩ := V.separate (by decide) hmessage
    rw [← append_of_placeholder? hfound] at htail
    obtain ⟨hdigits, hclosing, hafter⟩ := V.separate (by decide) htail
    have hput : V.Writes (arguments[index.toNat]?.getD ('{' :: digits ++ ['}'])) := by
      cases hargument : arguments[index.toNat]? with
      | some a => exact harguments a (List.mem_of_getElem? hargument)
      | none => exact V.append (V.append hopening hdigits) hclosing
    have htail : V.Writes ([] ++ rest) := ih hrest hafter
    exact V.append hdone (V.append hput htail)
  | _ => cases h

lemma stays_resource : Source.Stays V resourceSource := by
  intro key hkey
  unfold resourceSource
  split
  · exact .throw _
  · rename_i bundle rest hsplit
    obtain ⟨hbundle, hrest⟩ := writes_of_partition (by decide) hsplit hkey
    have hjoin : V.Writes (Text.join [','] (Text.pieces ',' rest)) := by
      rw [Text.join_pieces]
      exact hrest rest rfl
    have hpieces := Vocabulary.writes_of_join (by decide) hjoin
    refine (Vocabulary.Stays.request (q := .read .resourceBundles bundle) hbundle).bind
      fun found hfound => ?_
    split
    · exact .pure (.str hkey)
    · rename_i entries
      have harguments : ∀ a ∈ (Text.pieces ',' rest).tail.map Text.trim, V.Writes a :=
        List.forall_mem_map.2 fun a ha => writes_trim (hpieces a (List.mem_of_mem_tail ha))
      dsimp only
      split
      · exact (Vocabulary.Stays.perform (q := .report _) trivial).bind fun _ _ => .pure (.str hkey)
      · rename_i hsome
        have hmessage := holds_get hfound.dict_values ((Text.pieces ',' rest).headD [])
        split
        · exact .pure hmessage
        · split
          · rename_i t ht
            have hdisplay := hmessage.shows.display fun h => hsome h
            have hput : V.Writes ([] ++ t) := writes_of_formatMessage harguments ht hdisplay
            exact .pure (.str hput)
          · exact .throw _
    · exact .throw _

/-- The built-in sources stay within every vocabulary that has what they bring in. -/
lemma stays_of_builtinSources {keyword : Text} {source : Source}
    (h : builtinSources.find? keyword = some source) (hV : V.TakesSource keyword) :
    source.Stays V := by
  have hscope : ∀ scope, Source.Stays V (scopeSource scope) :=
    fun scope key hkey => .request (q := .read scope key) hkey
  have hall : ∀ row ∈ builtinSources, V.TakesSource row.1 → Source.Stays V row.2 := by
    simp only [builtinSources, List.map_cons, List.map_nil, List.forall_mem_cons]
    refine ⟨fun _ => hscope _, fun _ => hscope _, fun _ => hscope _, fun _ => hscope _,
      fun _ => hscope _, fun _ => hscope _, fun _ => hscope _, ?_, ?_, ?_, ?_,
      fun _ => stays_resource, ?_, List.forall_mem_nil _⟩
    · exact fun _ key hkey => .pure (.str hkey)
    · exact fun hV key hkey => .request (q := .checkNested key) ⟨hkey, hV.eval rfl⟩
    · exact fun hV key _ => .pure (.fixed rfl (hV.boolean rfl _))
    · intro hV key hkey
      unfold intSource
      split
      · rename_i n hn
        exact .pure (.fixed rfl (hV.int rfl key n hkey hn))
      · exact .throw _
    · intro hV key hkey
      obtain ⟨hline, hstack⟩ := hV.stackTrace rfl
      exact (Vocabulary.Stays.request (q := .stack) hstack).bind fun stack hstack =>
        .pure (.str (V.append hkey (V.append hline hstack.text)))
  exact hall _ (Table.mem_of_find? h) hV

end Template

end Stencil
