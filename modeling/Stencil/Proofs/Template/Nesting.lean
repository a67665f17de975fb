import Mathlib.Data.List.Induction
import Mathlib.Logic.Relation
import Stencil.Proofs.Template.Marks
import Stencil.Proofs.Value.Printable
import Stencil.Template.Resolve

/-!
# Nested tokens

The substitution of tokens rescans a text that it keeps rewriting.  This file says what it amounts
to: `Parts` is a template as a tree, in which the key of a token is again a template, and
`Parts.resolve` is its meaning by recursion, from the right to the left and from the inside to the
outside.  The main statement, `text_resolveVariables`, is that resolving the written template does
the same, whatever the marks are.

The sources are arbitrary scripts, which may read and assign scopes, leave notes, call back and
fail.  So the agreement, which is one of runs, fixes more than the final text: each token's source
is asked once, with the text of its resolved key, after the sources within the key and after those
to its right, and the context goes through these calls in this order.

What carries the induction is the state of the scan, a text still to be searched and a text that has
been (`sweep`).  A part of a template moves from the one to the other as the text it resolves to,
whatever stands before it and behind it (`ScansAs`).  The text behind a start mark is the
resolved text of its token's parts, so the search for the mark that closes the token needs it
balanced; the text before it has not been touched.
-/

namespace Stencil.Template

/-! ## Runs -/

section Runs

variable {α β : Type}

lemma run_bind_of_ok {x : Resolution α} {f : α → Resolution β} {c c' : Context} {a : α}
    (h : x.run c = .ok a c') : (x >>= f).run c = (f a).run c' := by
  rw [EStateM.run_bind, h]

/-- Two continuations of a run are as good as each other if they agree on what it can come to. -/
lemma run_bind_congr {x : Resolution α} {f g : α → Resolution β} {c : Context}
    (h : ∀ a c', x.run c = .ok a c' → (f a).run c' = (g a).run c') :
    (x >>= f).run c = (x >>= g).run c := by
  rw [EStateM.run_bind, EStateM.run_bind]
  cases hx : x.run c with
  | ok a c' => exact h a c' hx
  | error e c' => rfl

lemma run_map_congr {x y : Resolution α} {c c' : Context} (f : α → β)
    (h : x.run c = y.run c') : (f <$> x).run c = (f <$> y).run c' := by
  rw [map_eq_pure_bind, map_eq_pure_bind, EStateM.run_bind, EStateM.run_bind, h]

/-- A run of two steps that comes to something is a run of the first and one of the second. -/
lemma exists_of_run_bind {x : Resolution α} {f : α → Resolution β} {c c' : Context} {b : β}
    (h : (x >>= f).run c = .ok b c') : ∃ a c₁, x.run c = .ok a c₁ ∧ (f a).run c₁ = .ok b c' := by
  rw [EStateM.run_bind] at h
  cases hx : x.run c with
  | ok a c₁ => exact ⟨a, c₁, rfl, by rwa [hx] at h⟩
  | error e c₁ => rw [hx] at h; cases h

end Runs

/-! ## The scan -/

/-- The scan once the first character of the text `right` has been looked at. -/
def sweep (handler : Request → Resolution Value) (d : Delimiters) : Text → Text → Resolution Value
  | [], right => pure (.str right)
  | c :: left, right => substitute handler d left (c :: right)

section Scan

variable (handler : Request → Resolution Value) (m : Marks)

/-- Where no start mark stands there is nothing to substitute. -/
lemma substitute_skip {right : Text} (hr : ∀ c ∈ right.head?, c ≠ m.start) (left : Text) :
    substitute handler m.delimiters left right = sweep handler m.delimiters left right := by
  have hnone : token? m.delimiters right = none := by
    cases right with
    | nil => exact token?_nil m
    | cons c t => exact token?_of_ne m (hr c (by simp)) t
  have hstart : m.delimiters.start.isPrefixOf right = false := by
    cases right with
    | nil => rfl
    | cons c t =>
      have hc : c ≠ m.start := hr c (by simp)
      simp [Marks.delimiters, List.isPrefixOf, Ne.symm hc]
  cases left with
  | nil => simp [substitute, sweep, tokenValue, hnone]
  | cons c left => simp [substitute, sweep, tokenValue, hnone, hstart]

/-- A text without start marks is passed over. -/
lemma sweep_literal {t : Text} (ht : m.start ∉ t) (left right : Text) :
    sweep handler m.delimiters (t.reverse ++ left) right =
      sweep handler m.delimiters left (t ++ right) := by
  -- By induction from the end of the text, as the scan goes.
  induction t using List.reverseRecOn generalizing right with
  | nil => rfl
  | append_singleton t c ih =>
    obtain ⟨ht, hc⟩ : m.start ∉ t ∧ m.start ≠ c := by simpa using ht
    have hhead : ∀ d ∈ (c :: right).head?, d ≠ m.start := by simpa using Ne.symm hc
    calc sweep handler m.delimiters ((t ++ [c]).reverse ++ left) right
        = substitute handler m.delimiters (t.reverse ++ left) (c :: right) := by simp [sweep]
      _ = sweep handler m.delimiters (t.reverse ++ left) (c :: right) :=
          substitute_skip handler m hhead _
      _ = sweep handler m.delimiters left (t ++ [c] ++ right) := by rw [ih ht]; simp

/-- A text without start marks, which may be any texts here, has nothing to substitute. -/
lemma substitute_of_noStart {d : Delimiters} {left right : Text}
    (h : ¬ d.start <:+: left.reverse ++ right) :
    substitute handler d left right = pure (.str (left.reverse ++ right)) := by
  -- Wherever the scan comes, what is behind it is a suffix of the whole text, and starts with no
  -- mark.
  have hstart : ∀ t, t <:+ left.reverse ++ right → d.start.isPrefixOf t = false := by
    intro t ht
    rw [Bool.eq_false_iff, ne_eq, List.isPrefixOf_iff_prefix]
    exact fun hfirst => h (hfirst.isInfix.trans ht.isInfix)
  induction left generalizing right with
  | nil =>
    have hnone : token? d right = none := by
      rw [token?, hstart right List.suffix_rfl, if_neg Bool.false_ne_true]
    simp [substitute, tokenValue, hnone]
  | cons c left ih =>
    have hright : d.start.isPrefixOf right = false := hstart right (List.suffix_append _ _)
    have hnone : token? d right = none := by
      rw [token?, hright, if_neg Bool.false_ne_true]
    have htext : (c :: left).reverse ++ right = left.reverse ++ c :: right := by simp
    rw [htext] at h hstart ⊢
    simp [substitute, tokenValue, hright, hnone, ih h hstart]

/-- A token of a registered type is its source's value and what stands behind it. -/
lemma tokenValue_of_token (left : Text) {right : Text} {token : Token} {s : Source} {c : Context}
    (ht : token? m.delimiters right = some token)
    (hs : c.sources.find? token.keyword = some s) :
    (tokenValue handler m.delimiters left right).run c =
      ((s token.key).run handler >>= fun v => pure (some (v, token.after))).run c := by
  simp only [tokenValue, ht]
  rw [run_bind_of_ok (EStateM.run_get c)]
  simp only [hs]

/-- A token at the start of the template gives its source's value as it is if no text is left behind
it. -/
lemma substitute_first {right keyword key : Text} {s : Source} {c : Context}
    (hs : c.sources.find? keyword = some s) (hk : m.opening ∉ keyword)
    (hkey : Balanced m.opening m.closing key) :
    (substitute handler m.delimiters []
        (m.start :: (keyword ++ m.opening :: (key ++ m.closing :: right)))).run c =
      ((s key).run handler >>= fun v =>
        pure (if right.isEmpty then v else .str (v.text ++ right))).run c := by
  have hvalue := tokenValue_of_token handler m [] (token?_balanced m hk hkey right) hs
  rw [substitute, EStateM.run_bind, hvalue, ← EStateM.run_bind, bind_assoc]
  simp

/-- A token that is the whole template is its source's value. -/
lemma substitute_whole {keyword key : Text} {s : Source} {c : Context}
    (hs : c.sources.find? keyword = some s) (hk : m.opening ∉ keyword)
    (hkey : Balanced m.opening m.closing key) :
    (substitute handler m.delimiters []
        (m.start :: (keyword ++ m.opening :: (key ++ [m.closing])))).run c =
      ((s key).run handler).run c := by
  rw [substitute_first handler m hs hk hkey]
  simp

/-- A token gives way to the text of its source's value.  The continuation `k` is there because a
token that is the whole template gives the value itself. -/
lemma substitute_token {left right keyword key : Text} {s : Source} {c : Context}
    (hleft : ∀ d ∈ left.head?, isEscape d = false) (hs : c.sources.find? keyword = some s)
    (hk : m.opening ∉ keyword) (hkey : Balanced m.opening m.closing key)
    {β : Type} {k : Value → Resolution β}
    (hblind : left = [] → right = [] → ∀ v c', ((s key).run handler).run c = .ok v c' →
      (k v).run c' = (k (.str v.text)).run c') :
    (substitute handler m.delimiters left
        (m.start :: (keyword ++ m.opening :: (key ++ m.closing :: right))) >>= k).run c =
      ((s key).run handler >>= fun v =>
        sweep handler m.delimiters left (v.text ++ right) >>= k).run c := by
  -- At the start of the template a token may be all of it; only there does its value go on as it
  -- is.
  cases left with
  | nil =>
    rw [EStateM.run_bind, substitute_first handler m hs hk hkey, ← EStateM.run_bind, bind_assoc]
    apply run_bind_congr
    intro v c' hv
    cases right with
    | nil => simpa [sweep] using hblind rfl rfl v c' hv
    | cons d right => simp [sweep]
  | cons d left =>
    have hd : isEscape d = false := hleft d (by simp)
    have hvalue := tokenValue_of_token handler m (d :: left) (token?_balanced m hk hkey right) hs
    simp only [substitute, hd, Bool.and_false, Bool.false_eq_true, if_false, bind_assoc]
    rw [EStateM.run_bind, hvalue, ← EStateM.run_bind, bind_assoc]
    simp only [pure_bind, sweep]

end Scan

/-! ## Values without escape marks -/

mutual

/-- A value without escape marks: none in a text, and none in the members of a list or a row. -/
def Unmarked : Value → Prop
  | .str t => escapeMark ∉ t
  | .list items => AllUnmarked items
  | .tuple items => AllUnmarked items
  | _ => True

/-- A list of values without escape marks. -/
def AllUnmarked : List Value → Prop
  | [] => True
  | v :: vs => Unmarked v ∧ AllUnmarked vs

end

lemma restoreText_of_notMem {t : Text} (ht : escapeMark ∉ t) : restoreText t = t := by
  rw [restoreText, List.filter_eq_self]
  intro c hc
  exact bne_iff_ne.2 fun h => ht (h ▸ hc)

mutual

/-- Taking out escape marks changes nothing where there are none. -/
theorem restore_of_unmarked : (v : Value) → Unmarked v → restore v = v
  | .str _, h => congrArg Value.str (restoreText_of_notMem h)
  | .list items, h => congrArg Value.list (restoreAll_of_allUnmarked items h)
  | .tuple items, h => congrArg Value.tuple (restoreAll_of_allUnmarked items h)
  | .none, _ => rfl
  | .bool _, _ => rfl
  | .int _, _ => rfl
  | .float _, _ => rfl
  | .dict _, _ => rfl
  | .set _, _ => rfl

lemma restoreAll_of_allUnmarked :
    (items : List Value) → AllUnmarked items → restoreAll items = items
  | [], _ => rfl
  | v :: vs, h => by
    rw [restoreAll, restore_of_unmarked v h.1, restoreAll_of_allUnmarked vs h.2]

end

/-- The text of a value without escape marks has none. -/
lemma Unmarked.notMem_text {v : Value} (h : Unmarked v) : escapeMark ∉ v.text := by
  apply Value.notMem_text_of_unprintable (by decide +kernel)
  rintro t rfl
  exact h

/-! ## Templates as trees -/

/-- A template: a row of literal texts and tokens.  The key of a token is a template. -/
inductive Parts where
  | nil
  | literal (t : Text) (rest : Parts)
  | token (keyword : Text) (key rest : Parts)

namespace Parts

/-- The template as it is written. -/
def text (m : Marks) : Parts → Text
  | .nil => []
  | .literal t rest => t ++ rest.text m
  | .token keyword key rest =>
    m.start :: (keyword ++ m.opening :: (key.text m ++ m.closing :: rest.text m))

/-- The type keywords of a template. -/
def keywords : Parts → List Text
  | .nil => []
  | .literal _ rest => rest.keywords
  | .token keyword key rest => keyword :: (key.keywords ++ rest.keywords)

/-- What a template comes to, `source` giving the source of a type keyword: first what stands on the
right, then, for a token, its key, and then the value of the key. -/
def resolve (handler : Request → Resolution Value) (source : Text → Source) :
    Parts → Resolution Text
  | .nil => pure []
  | .literal t rest => do
    let after ← rest.resolve handler source
    return t ++ after
  | .token keyword key rest => do
    let after ← rest.resolve handler source
    let key ← key.resolve handler source
    let value ← (source keyword key).run handler
    return value.text ++ after

/-- Whether a template can be told from what is written.  `within` says whether it is the key of a
token, and `before` is the last character of the literal text in front of it, if there is one.
Literal texts have no start marks, and are balanced within a token; no token stands behind a
backslash; and the type keywords of tokens are registered and have no marks. -/
def Fits (m : Marks) (sources : SourceRegistry) (source : Text → Source) :
    Bool → Option Char → Parts → Prop
  | _, _, .nil => True
  | within, before, .literal t rest =>
    m.start ∉ t ∧ escapeMark ∉ t ∧ (within = true → Balanced m.opening m.closing t) ∧
      rest.Fits m sources source within (t.getLast?.or before)
  | within, before, .token keyword key rest =>
    before ≠ some '\\' ∧ sources.find? keyword = some (source keyword) ∧
      (m.start ∉ keyword ∧ m.opening ∉ keyword ∧ m.closing ∉ keyword) ∧
      key.Fits m sources source true none ∧ rest.Fits m sources source within none

end Parts

/-! ## Calls of sources -/

section Calls

variable (m : Marks) (handler : Request → Resolution Value) (source : Text → Source)
  (keywords : List Text)

/-- A source of one of the keywords, asked for a balanced key without escape marks, gives a value
and leads from one context to another. -/
def Gives (c : Context) (v : Value) (c' : Context) : Prop :=
  ∃ keyword ∈ keywords, ∃ key, Balanced m.opening m.closing key ∧ escapeMark ∉ key ∧
    ((source keyword key).run handler).run c = .ok v c'

/-- A context that calls of the sources can lead to. -/
def Reaches : Context → Context → Prop :=
  Relation.ReflTransGen fun c c' => ∃ v, Gives m handler source keywords c v c'

/-- What is asked of the sources in a context, and in those that their calls lead to: they leave the
registry and the template parameters as they are, and the texts of their values are balanced and
without escape marks. -/
structure Tame (c : Context) : Prop where
  sources_eq : ∀ c', Reaches m handler source keywords c c' → c'.sources = c.sources
  params_eq : ∀ c', Reaches m handler source keywords c c' →
    c'.scopes.templateParams = c.scopes.templateParams
  balanced : ∀ c₁ v c₂, Reaches m handler source keywords c c₁ →
    Gives m handler source keywords c₁ v c₂ → Balanced m.opening m.closing v.text
  unmarked : ∀ c₁ v c₂, Reaches m handler source keywords c c₁ →
    Gives m handler source keywords c₁ v c₂ → Unmarked v

variable {m handler source keywords} {c : Context}

/-- What a template comes to leads to a context that is reached, and to a text without escape marks,
which is balanced if the template is the key of a token. -/
lemma Tame.run_resolve (hc : Tame m handler source keywords c) {parts : Parts} {within : Bool}
    {before : Option Char} (hp : parts.Fits m c.sources source within before)
    (hk : ∀ k ∈ parts.keywords, k ∈ keywords) {c₁ c₂ : Context} {t : Text}
    (h₁ : Reaches m handler source keywords c c₁)
    (h : (parts.resolve handler source).run c₁ = .ok t c₂) :
    Reaches m handler source keywords c c₂ ∧ escapeMark ∉ t ∧
      (within = true → Balanced m.opening m.closing t) := by
  -- By induction on the template: the parts behind come first, then the key, then the source.
  induction parts generalizing within before c₁ c₂ t with
  | nil =>
    obtain ⟨rfl, rfl⟩ : [] = t ∧ c₁ = c₂ := by simpa [Parts.resolve] using h
    exact ⟨h₁, by simp, fun _ => balanced_nil⟩
  | literal s rest ih =>
    obtain ⟨-, hmark, hbalanced, hrest⟩ := hp
    obtain ⟨after, c', hafter, h⟩ := exists_of_run_bind h
    obtain ⟨rfl, rfl⟩ : s ++ after = t ∧ c' = c₂ := by simpa using h
    obtain ⟨hreach, hnone, hb⟩ := ih hrest hk h₁ hafter
    exact ⟨hreach, by simp [hmark, hnone], fun hw => (hbalanced hw).append (hb hw)⟩
  | token keyword key rest ihk ihr =>
    obtain ⟨-, -, -, hkey, hrest⟩ := hp
    obtain ⟨hkeyword, hkeys⟩ := List.forall_mem_cons.1 hk
    obtain ⟨hkk, hkr⟩ := List.forall_mem_append.1 hkeys
    obtain ⟨after, cr, hafter, h⟩ := exists_of_run_bind h
    obtain ⟨k, ck, hk, h⟩ := exists_of_run_bind h
    obtain ⟨v, cv, hv, h⟩ := exists_of_run_bind h
    obtain ⟨rfl, rfl⟩ : v.text ++ after = t ∧ cv = c₂ := by simpa using h
    obtain ⟨hreachr, hnoner, hbr⟩ := ihr hrest hkr h₁ hafter
    obtain ⟨hreachk, hnonek, hbk⟩ := ihk hkey hkk hreachr hk
    have hgives : Gives m handler source keywords ck v cv :=
      ⟨keyword, hkeyword, k, hbk rfl, hnonek, hv⟩
    refine ⟨hreachk.tail ⟨v, hgives⟩, ?_, fun hw => ?_⟩
    · simp [hnoner, (hc.unmarked ck v cv hreachk hgives).notMem_text]
    · exact (hc.balanced ck v cv hreachk hgives).append (hbr hw)

/-- Once its key has been resolved, a token is scanned as the text of its source's value. -/
lemma Tame.sweep_token (hc : Tame m handler source keywords c) {keyword t : Text}
    (hkeyword : keyword ∈ keywords) (hfind : c.sources.find? keyword = some (source keyword))
    (hks : m.start ∉ keyword) (hko : m.opening ∉ keyword) {left : Text}
    (hleft : ∀ d ∈ left.head?, isEscape d = false) (ht : Balanced m.opening m.closing t)
    (hnone : escapeMark ∉ t) (right : Text) {k : Value → Resolution Text}
    (hblind : ∀ c' v, Reaches m handler source keywords c c' → Unmarked v →
      (k v).run c' = (k (.str v.text)).run c')
    {c₁ : Context} (h₁ : Reaches m handler source keywords c c₁) :
    (sweep handler m.delimiters (m.opening :: (keyword.reverse ++ m.start :: left))
        (t ++ m.closing :: right) >>= k).run c₁ =
      ((source keyword t).run handler >>= fun v =>
        sweep handler m.delimiters left (v.text ++ right) >>= k).run c₁ := by
  have hmark : m.start ∉ keyword ++ [m.opening] := by simp [hks, m.start_ne_opening]
  have hfind' : c₁.sources.find? keyword = some (source keyword) := by
    rw [hc.sources_eq c₁ h₁]
    exact hfind
  have hvalue : ∀ v c', ((source keyword t).run handler).run c₁ = .ok v c' →
      (k v).run c' = (k (.str v.text)).run c' := by
    intro v c' hv
    have hgives : Gives m handler source keywords c₁ v c' :=
      ⟨keyword, hkeyword, t, ht, hnone, hv⟩
    exact hblind c' v (h₁.tail ⟨v, hgives⟩) (hc.unmarked c₁ v c' h₁ hgives)
  have hskip := sweep_literal handler m hmark (m.start :: left) (t ++ m.closing :: right)
  simp only [List.reverse_append, List.reverse_singleton, List.cons_append, List.nil_append,
    List.append_assoc] at hskip
  rw [hskip]
  simpa only [sweep] using
    substitute_token handler m hleft hfind' hko ht fun _ _ => hvalue

variable (m handler source keywords c) in
/-- The scan of a template is that of the text that the template comes to, in every context that is
reached: whatever stands behind it, whatever is done with the result, and whatever stands before it,
if that ends in `before` where it ends in an escape. -/
def ScansAs (k : Value → Resolution Text) (before : Option Char) (parts : Parts) : Prop :=
  ∀ (left right : Text) (c₁ : Context), Reaches m handler source keywords c c₁ →
    (∀ d ∈ left.head?, isEscape d = true → d ≠ escapeMark ∧ before = some d) →
      (sweep handler m.delimiters ((parts.text m).reverse ++ left) right >>= k).run c₁ =
        (parts.resolve handler source >>= fun t =>
          sweep handler m.delimiters left (t ++ right) >>= k).run c₁

section ScansAs

variable {k : Value → Resolution Text} {before : Option Char} {rest : Parts}

/-- A literal text is passed over. -/
lemma ScansAs.literal {s : Text} (hstart : m.start ∉ s) (hmark : escapeMark ∉ s)
    (hrest : ScansAs m handler source keywords c k (s.getLast?.or before) rest) :
    ScansAs m handler source keywords c k before (.literal s rest) := by
  intro left right c₁ h₁ hleft
  -- What stands in front of the rest is the last character of the literal text, if that has any.
  have hleft' : ∀ d ∈ (s.reverse ++ left).head?, isEscape d = true →
      d ≠ escapeMark ∧ s.getLast?.or before = some d := by
    intro d hd hescape
    cases hs : s.getLast? with
    | none =>
      obtain rfl := List.getLast?_eq_none_iff.1 hs
      exact hleft d (by simpa using hd) hescape
    | some e =>
      obtain rfl : e = d := by simpa [hs] using hd
      exact ⟨fun he => hmark (he ▸ List.mem_of_getLast? hs), rfl⟩
  calc (sweep handler m.delimiters ((s ++ rest.text m).reverse ++ left) right >>= k).run c₁
      = (sweep handler m.delimiters ((rest.text m).reverse ++ (s.reverse ++ left)) right
          >>= k).run c₁ := by simp
    _ = (rest.resolve handler source >>= fun t =>
          sweep handler m.delimiters (s.reverse ++ left) (t ++ right) >>= k).run c₁ :=
        hrest _ right c₁ h₁ hleft'
    _ = ((Parts.literal s rest).resolve handler source >>= fun t =>
          sweep handler m.delimiters left (t ++ right) >>= k).run c₁ := by
        simp only [Parts.resolve, bind_assoc, pure_bind, sweep_literal handler m hstart,
          List.append_assoc]

/-- Behind a mark, which is no escape, a template may stand anywhere. -/
lemma ScansAs.behind_mark {parts : Parts} (h : ScansAs m handler source keywords c k none parts)
    {d : Char} (hd : isEscape d = false) (left right : Text) {c₁ : Context}
    (h₁ : Reaches m handler source keywords c c₁) :
    (sweep handler m.delimiters ((parts.text m).reverse ++ d :: left) right >>= k).run c₁ =
      (parts.resolve handler source >>= fun t =>
        sweep handler m.delimiters (d :: left) (t ++ right) >>= k).run c₁ := by
  refine h (d :: left) right c₁ h₁ fun e he hescape => ?_
  obtain rfl : d = e := by simpa using he
  rw [hd] at hescape
  cases hescape

/-- The start mark of a token is not escaped: a backslash before it would be the last character of
the literal text there. -/
lemma isEscape_of_before {left : Text} (hbefore : before ≠ some '\\')
    (hleft : ∀ d ∈ left.head?, isEscape d = true → d ≠ escapeMark ∧ before = some d) :
    ∀ d ∈ left.head?, isEscape d = false := by
  intro d hd
  cases hescape : isEscape d with
  | false => rfl
  | true =>
    obtain ⟨hne, rfl⟩ := hleft d hd hescape
    simp only [isEscape, Bool.or_eq_true, beq_iff_eq] at hescape
    rcases hescape with rfl | rfl
    · exact absurd rfl hbefore
    · exact absurd rfl hne

/-- A token is scanned from its end: first what stands behind it, then its key, and then the token
itself, with the key resolved. -/
lemma Tame.scansAs_token (hc : Tame m handler source keywords c) {keyword : Text} {key : Parts}
    {within : Bool} (hp : (Parts.token keyword key rest).Fits m c.sources source within before)
    (hk : ∀ k ∈ (Parts.token keyword key rest).keywords, k ∈ keywords)
    (hblind : ∀ c' v, Reaches m handler source keywords c c' → Unmarked v →
      (k v).run c' = (k (.str v.text)).run c')
    (hkeyscan : ScansAs m handler source keywords c k none key)
    (hrestscan : ScansAs m handler source keywords c k none rest) :
    ScansAs m handler source keywords c k before (.token keyword key rest) := by
  intro left right c₁ h₁ hleft
  obtain ⟨hslash, hfind, ⟨hks, hko, -⟩, hkey, hrest⟩ := hp
  obtain ⟨hkeyword, hkeys⟩ := List.forall_mem_cons.1 hk
  obtain ⟨hkk, hkr⟩ := List.forall_mem_append.1 hkeys
  have hfree := isEscape_of_before hslash hleft
  let opened : Text := m.opening :: (keyword.reverse ++ m.start :: left)
  calc (sweep handler m.delimiters
          (((Parts.token keyword key rest).text m).reverse ++ left) right >>= k).run c₁
      = (sweep handler m.delimiters ((rest.text m).reverse ++ (m.closing :: ((key.text m).reverse
          ++ opened))) right >>= k).run c₁ := by simp [Parts.text, opened]
    _ = (rest.resolve handler source >>= fun after =>
          sweep handler m.delimiters (m.closing :: ((key.text m).reverse ++ opened))
            (after ++ right) >>= k).run c₁ := hrestscan.behind_mark m.closing_plain _ right h₁
    _ = (rest.resolve handler source >>= fun after => key.resolve handler source >>= fun t =>
          sweep handler m.delimiters opened (t ++ m.closing :: (after ++ right)) >>= k).run c₁ := by
        apply run_bind_congr
        intro after c' hafter
        have h' := (hc.run_resolve hrest hkr h₁ hafter).1
        have hskip := sweep_literal handler m (t := [m.closing]) (by simpa using m.start_ne_closing)
          ((key.text m).reverse ++ opened) (after ++ right)
        rw [List.reverse_singleton, List.singleton_append, List.singleton_append] at hskip
        rw [hskip]
        exact hkeyscan.behind_mark m.opening_plain _ (m.closing :: (after ++ right)) h'
    _ = ((Parts.token keyword key rest).resolve handler source >>= fun t =>
          sweep handler m.delimiters left (t ++ right) >>= k).run c₁ := by
        simp only [Parts.resolve, bind_assoc, pure_bind]
        apply run_bind_congr
        intro after c' hafter
        have h' := (hc.run_resolve hrest hkr h₁ hafter).1
        apply run_bind_congr
        intro t c'' ht
        obtain ⟨h'', hnone, hbalanced⟩ := hc.run_resolve hkey hkk h' ht
        rw [hc.sweep_token hkeyword hfind hks hko hfree (hbalanced rfl) hnone (after ++ right)
          hblind h'']
        simp only [List.append_assoc]

/-- The scan goes over a template as over the text that the template comes to.  The continuation `k`
may not tell a value from its text. -/
lemma Tame.scansAs (hc : Tame m handler source keywords c) {parts : Parts} {within : Bool}
    (hp : parts.Fits m c.sources source within before) (hk : ∀ k ∈ parts.keywords, k ∈ keywords)
    (hblind : ∀ c' v, Reaches m handler source keywords c c' → Unmarked v →
      (k v).run c' = (k (.str v.text)).run c') :
    ScansAs m handler source keywords c k before parts := by
  induction parts generalizing within before with
  | nil =>
    intro left right c₁ _ _
    simp [Parts.text, Parts.resolve]
  | literal s rest ih =>
    obtain ⟨hstart, hmark, -, hrest⟩ := hp
    exact .literal hstart hmark (ih hrest hk)
  | token keyword key rest ihk ihr =>
    have hkeys := (List.forall_mem_cons.1 hk).2
    obtain ⟨hkk, hkr⟩ := List.forall_mem_append.1 hkeys
    obtain ⟨-, -, -, hkey, hrest⟩ := id hp
    exact hc.scansAs_token hp hk hblind (ihk hkey hkk) (ihr hrest hkr)

end ScansAs

end Calls

/-! ## Resolution -/

/-- A resolution is a scan and the merging of what it comes to. -/
lemma resolveText_eq (handler : Request → Resolution Value) (left : Nat) (m : Marks) (t : Text) :
    resolveText handler left m.delimiters t =
      sweep handler m.delimiters t.reverse [] >>= settle (nextRound handler left) := by
  rw [← substitute_skip handler m (by simp) t.reverse]
  cases left <;> rfl

/-- A text without start marks is only merged. -/
lemma resolveText_of_noStart (handler : Request → Resolution Value) (left : Nat) {d : Delimiters}
    {t : Text} (h : ¬ d.start <:+: t) :
    resolveText handler left d t = mergeParams (nextRound handler left) t := by
  have hscan : substitute handler d t.reverse [] = pure (.str t) := by
    rw [substitute_of_noStart handler (by simpa using h)]
    simp
  cases left <;> simp only [resolveText, hscan, pure_bind] <;> rfl

/-- Where no template parameter is bound, nothing is merged. -/
lemma run_settle_of_no_params (next : Option (Text → Resolution Value)) (v : Value) {c : Context}
    (hc : c.scopes.templateParams = []) : (settle next v).run c = .ok v c := by
  cases v with
  | str t => simp [settle, mergeParams, hc]
  | _ => rfl

/-- **Substitution is recursion over the template**, from the right to the left and from the inside
to the outside.  Resolving the written template has the same run as `Parts.resolve`: the sources are
asked once for each token and in that order, for the texts of the resolved keys, and the context and
a failure are passed on alike; and the text of the result is the text that the template comes to.
A template that is a single token may give a value of another kind than a text. -/
theorem text_resolveVariables (m : Marks) (parts : Parts) (source : Text → Source) (c : Context)
    (hparams : c.scopes.templateParams = []) (hparts : parts.Fits m c.sources source false none)
    (hsource : Tame m (handlerOf c) source parts.keywords c) :
    (Value.text <$> resolveVariables m.delimiters (parts.text m)).run c =
      (parts.resolve (handlerOf c) source).run c := by
  let finish : Value → Resolution Text := fun v => do
    let w ← settle (nextRound (handlerOf c) c.mergesAllowed) v
    return (restore w).text
  -- Where no parameter is bound the end of a resolution only takes the escape marks out.
  have hfinish : ∀ c' v, Reaches m (handlerOf c) source parts.keywords c c' →
      (finish v).run c' = .ok (restore v).text c' := by
    intro c' v hreach
    have hnone : c'.scopes.templateParams = [] := by rw [hsource.params_eq c' hreach, hparams]
    exact run_bind_of_ok (run_settle_of_no_params _ v hnone)
  have hblind : ∀ c' v, Reaches m (handlerOf c) source parts.keywords c c' → Unmarked v →
      (finish v).run c' = (finish (.str v.text)).run c' := by
    intro c' v hreach hv
    rw [hfinish c' v hreach, hfinish c' _ hreach, restore_of_unmarked v hv, restore,
      restoreText_of_notMem hv.notMem_text, Value.text_str]
  have hstart : (Value.text <$> resolveVariables m.delimiters (parts.text m)).run c =
      (sweep (handlerOf c) m.delimiters ((parts.text m).reverse ++ []) [] >>= finish).run c := by
    have hrun := run_map_congr Value.text (run_resolveVariables m.delimiters (parts.text m) c)
    rw [hrun, resolveText_eq]
    simp [finish]
  have hparts' := hsource.scansAs hparts (fun _ h => h) hblind [] [] c Relation.ReflTransGen.refl
    (by simp)
  calc (Value.text <$> resolveVariables m.delimiters (parts.text m)).run c
      = (parts.resolve (handlerOf c) source >>= fun t =>
          sweep (handlerOf c) m.delimiters [] (t ++ []) >>= finish).run c := by
        rw [hstart, hparts']
    _ = (parts.resolve (handlerOf c) source >>= pure).run c := by
        apply run_bind_congr
        intro t c' ht
        obtain ⟨hreach, hnone, -⟩ :=
          hsource.run_resolve hparts (fun _ h => h) Relation.ReflTransGen.refl ht
        simp only [sweep, pure_bind, List.append_nil]
        rw [hfinish c' _ hreach, restore, restoreText_of_notMem hnone]
        rfl
    _ = (parts.resolve (handlerOf c) source).run c := by rw [bind_pure]

/-- The sources of scopes read them and change nothing, however deep the calls are. -/
lemma run_scopeSource_answer (scope : Scope) (key : Text) (level : Nat) (c : Context) :
    ((scopeSource scope key).run (answer level)).run c = .ok (c.lookUp scope key) c := by
  cases level <;> rfl

lemma run_scopeSource (scope : Scope) (key : Text) (c₀ c : Context) :
    ((scopeSource scope key).run (handlerOf c₀)).run c = .ok (c.lookUp scope key) c :=
  run_scopeSource_answer scope key c₀.callBudget c

lemma run_escapeSource (key : Text) (c₀ c : Context) :
    ((escapeSource key).run (handlerOf c₀)).run c = .ok (.str key) c := rfl

/-- The template `}a$escape{x${k}}b`. -/
def escapedParts : Parts :=
  .literal ['}', 'a']
    (.token "escape".toList (.literal ['x'] (.token [] (.literal ['k'] .nil) .nil))
      (.literal ['b'] .nil))

/-- A context whose attribute `k` has marks in it. -/
def bracedContext : Context where
  scopes := { attributes := [(.str ['k'], .str ['{', '$', '}'])] }

/-- The sources of `escapedParts`. -/
def escapedSource (keyword : Text) : Source :=
  if keyword = [] then scopeSource .attributes else escapeSource

lemma tame_escapedSource :
    Tame Marks.standard (handlerOf bracedContext) escapedSource escapedParts.keywords
      bracedContext := by
  have hgives : ∀ c v c', Gives Marks.standard (handlerOf bracedContext) escapedSource
      escapedParts.keywords c v c' → c' = c ∧ ((∃ key, v = c.lookUp .attributes key) ∨
        ∃ key, v = .str key ∧ Balanced '{' '}' key ∧ escapeMark ∉ key) := by
    rintro c v c' ⟨keyword, -, key, hkey, hnone, hrun⟩
    unfold escapedSource at hrun
    split at hrun
    · rw [run_scopeSource] at hrun
      cases hrun
      exact ⟨rfl, .inl ⟨key, rfl⟩⟩
    · rw [run_escapeSource] at hrun
      cases hrun
      exact ⟨rfl, .inr ⟨key, rfl, hkey, hnone⟩⟩
  have hreach : ∀ c, Reaches Marks.standard (handlerOf bracedContext) escapedSource
      escapedParts.keywords bracedContext c → c = bracedContext := by
    intro c h
    induction h with
    | refl => rfl
    | tail _ hstep ih =>
      obtain ⟨v, hv⟩ := hstep
      rw [(hgives _ v _ hv).1, ih]
  have hattribute : ∀ key, bracedContext.lookUp .attributes key = .str ['{', '$', '}'] ∨
      bracedContext.lookUp .attributes key = .none := by
    intro key
    by_cases hkey : key = ['k']
    · exact .inl (by rw [hkey]; rfl)
    · refine .inr ?_
      simp [bracedContext, Context.lookUp, Scopes.get, Entries.get, Entries.find?, Value.isNamed,
        Ne.symm hkey]
  have hvalue : ∀ c v c', Reaches Marks.standard (handlerOf bracedContext) escapedSource
      escapedParts.keywords bracedContext c → Gives Marks.standard (handlerOf bracedContext)
        escapedSource escapedParts.keywords c v c' → Balanced '{' '}' v.text ∧ Unmarked v := by
    intro c v c' hc hv
    obtain rfl := hreach c hc
    rcases (hgives _ v c' hv).2 with ⟨key, rfl⟩ | ⟨key, rfl, hkey, hnone⟩
    · rcases hattribute key with h | h
      · rw [h]
        exact ⟨by decide, by unfold Unmarked; decide⟩
      · rw [h]
        exact ⟨by decide, trivial⟩
    · exact ⟨hkey, hnone⟩
  exact {
    sources_eq := fun c hc => by rw [hreach c hc]
    params_eq := fun c hc => by rw [hreach c hc]
    balanced := fun c v c' hc hv => (hvalue c v c' hc hv).1
    unmarked := fun c v c' hc hv => (hvalue c v c' hc hv).2 }

/-- A value with a start mark in it within a token, next to a literal text that is not balanced. -/
theorem text_resolveVariables_braced :
    bracedContext.scopes.templateParams = [] ∧
      escapedParts.Fits Marks.standard bracedContext.sources escapedSource false none ∧
      Tame Marks.standard (handlerOf bracedContext) escapedSource escapedParts.keywords
        bracedContext ∧
      escapedParts.text Marks.standard = "\x7da$escape\x7bx$\x7bk\x7d\x7db".toList ∧
      (Value.text <$> resolveVariables {} (escapedParts.text Marks.standard)).run bracedContext =
        .ok "\x7dax\x7b$\x7db".toList bracedContext := by
  have hfits :
      escapedParts.Fits Marks.standard bracedContext.sources escapedSource false none := by
    have hescape :
        builtinSources.find? "escape".toList = some (escapedSource "escape".toList) := rfl
    have hattribute : builtinSources.find? [] = some (escapedSource []) := rfl
    refine ⟨by decide, by decide, by simp, by decide, hescape, by decide, ?_, ?_⟩
    · exact ⟨by decide, by decide, fun _ => by decide, by decide, hattribute, by decide,
        ⟨by decide, by decide, fun _ => by decide, trivial⟩, trivial⟩
    · exact ⟨by decide, by decide, by simp, trivial⟩
  have hrun := text_resolveVariables Marks.standard escapedParts escapedSource bracedContext rfl
    hfits tame_escapedSource
  refine ⟨rfl, hfits, tame_escapedSource, by decide, ?_⟩
  rw [← Marks.delimiters_standard, hrun]
  rfl

end Stencil.Template
