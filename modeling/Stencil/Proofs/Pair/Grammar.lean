import Stencil.Pair.Read
import Stencil.Proofs.Input.Trivia
import Stencil.Proofs.Input.Unclosed

/-!
# The grammar of name/value pairs

What a pair looks like that has its name in front and quotes around its value, as a grammar:
`PairText` relates a pair to its texts, `ValueText` the value that stands behind the sign, and
`Items` the items of a list or an array.  Trivia may stand between any two parts.  The runs of a
name and of a target are as long as they can be, since neither trivia nor the character after them
go on with one of their own.

Reading accepts exactly the texts of the grammar and leaves what comes after them.  Each part of the
reading has an equivalence of its own, between "comes to this, leaving that" and "the text starts
with such a part": `Ready.readList_iff`, `Ready.readMapping_iff`, `Ready.readPairValue_iff` and
`Ready.readQuotedPair_iff`.  They rest on two facts about the parts below them: a part ends before
an ordinary character, so that skipping trivia cannot go wrong (`IsLeft.nextPart_iff`), and a closed
text ends at its first unescaped terminator (`Ready.readClosed_iff`).

The main result is `readQuotedPair_fresh_iff`, for a fresh input over any text: it is also what
makes every other text a fault of that text.
-/

namespace Stencil.Input

/-! ## The grammar -/

/-- Letters, digits and the given further characters. -/
def tokenChar (extra : Text) (c : Char) : Bool := Text.isAlphanumeric c || extra.contains c

/-- A run of letters, digits and the given further characters. -/
def Token (extra w : Text) : Prop := ∀ c ∈ w, tokenChar extra c = true

/-- Quoted items, each with what may stand behind it, and the texts that they stand for. -/
inductive Items : List Text → Text → Prop where
  | nil : Items [] []
  | cons {quote : Char} {item gap t : Text} {items : List Text} (hq : Text.isQuote quote = true)
    (hitem : Precedes [quote] item) (hgap : Trivia itemMargins gap) (ht : Items items t) :
    Items (unescape item :: items) (quote :: item ++ quote :: (gap ++ t))

/-- What can stand for the value of a pair. -/
inductive ValueText (targets : List Text) (name : Text) : Pair → Text → Prop where
  | quoted {quote : Char} {value : Text} (hq : Text.isQuote quote = true)
    (hvalue : Precedes [quote] value) :
    ValueText targets name { name, value := .str (unescape value) } (quote :: value ++ [quote])
  | list {gap t : Text} {items : List Text} (hgap : Trivia margins gap) (ht : Items items t) :
    ValueText targets name { name, value := .list (items.map .str) } ('{' :: (gap ++ (t ++ ['}'])))
  | array {gap t : Text} {items : List Text} (hgap : Trivia margins gap) (ht : Items items t) :
    ValueText targets name { name, value := .tuple (items.map .str) } ('[' :: (gap ++ (t ++ [']'])))
  | mapping {gap target gap' key : Text} (hgap : Trivia margins gap)
    (htoken : Token ['_', ':', '.'] target) (htarget : target ∈ targets)
    (hgap' : Trivia margins gap') (hkey : Precedes ['}'] key) :
    ValueText targets name { name, value := .str (unescape key), target := some target }
      ('>' :: (gap ++ '$' :: (target ++ (gap' ++ '{' :: (key ++ ['}'])))))

/-- The texts of a pair that has a name, which may be empty, and whose value is quoted. -/
inductive PairText (targets : List Text) : Pair → Text → Prop where
  | intro {p : Pair} {name gap gap' t : Text} {sign : Char} (hname : Token ['_', '.'] name)
    (hgap : Trivia margins gap) (hsign : sign = '=' ∨ sign = ':') (hgap' : Trivia margins gap')
    (ht : ValueText targets name p t) : PairText targets p (name ++ (gap ++ sign :: (gap' ++ t)))

/-! ## Steps of a mapping -/

/-- The steps of a mapping that comes to something. -/
lemma readMapping_eq_ok_iff {name : Text} {i j : Input} {p : Pair} :
    readMapping name i = .ok p j ↔ ∃ target key i₁ i₂ i₃ i₄, nextPart i = .ok (some '$') i₁ ∧
      readToken ['_', ':', '.'] i₁ = .ok target i₂ ∧ target ∈ i₂.targets ∧
      nextPart i₂ = .ok (some '{') i₃ ∧ readClosed name '}' i₃ = .ok key i₄ ∧
      { name, value := .str key, target := some target } = p ∧ i₄ = j := by
  constructor
  · intro h
    simp only [readMapping] at h
    obtain ⟨dollar, i₁, h₁, h⟩ := bind_eq_ok_iff.1 h
    obtain ⟨hdollar, h⟩ := unless_eq_ok_iff.1 h
    obtain ⟨target, i₂, h₂, h⟩ := bind_eq_ok_iff.1 h
    obtain ⟨now, now', hget, h⟩ := bind_eq_ok_iff.1 h
    obtain ⟨rfl, rfl⟩ := get_eq_ok_iff.1 hget
    obtain ⟨htarget, h⟩ := unless_eq_ok_iff.1 h
    obtain ⟨brace, i₃, h₃, h⟩ := bind_eq_ok_iff.1 h
    obtain ⟨hbrace, h⟩ := unless_eq_ok_iff.1 h
    obtain ⟨key, i₄, h₄, h⟩ := bind_eq_ok_iff.1 h
    obtain ⟨rfl, rfl⟩ := pure_eq_ok_iff.1 h
    obtain rfl : dollar = some '$' := Decidable.not_not.1 hdollar
    obtain rfl : brace = some '{' := Decidable.not_not.1 hbrace
    exact ⟨target, key, i₁, i₂, i₃, _, h₁, h₂, by simpa using htarget, h₃, h₄, rfl, rfl⟩
  · rintro ⟨target, key, i₁, i₂, i₃, i₄, h₁, h₂, htarget, h₃, h₄, rfl, rfl⟩
    simp only [readMapping]
    refine bind_eq_ok_iff.2 ⟨some '$', i₁, h₁, unless_eq_ok_iff.2 ⟨by simp, ?_⟩⟩
    refine bind_eq_ok_iff.2 ⟨target, i₂, h₂, ?_⟩
    refine bind_eq_ok_iff.2 ⟨i₂, i₂, rfl, unless_eq_ok_iff.2 ⟨by simpa using htarget, ?_⟩⟩
    refine bind_eq_ok_iff.2 ⟨some '{', i₃, h₃, unless_eq_ok_iff.2 ⟨by simp, ?_⟩⟩
    exact bind_eq_ok_iff.2 ⟨key, _, h₄, rfl⟩

/-! ## Parts -/

variable {i j : Input} {c : Char}

lemma not_startsComment_of_mem_itemMargins {d : Char} (hd : d ∈ itemMargins) :
    startsComment d = false := by
  have hall : itemMargins.all (fun d => !startsComment d) = true := rfl
  simpa using List.all_eq_true.1 hall d hd

lemma not_startsComment_of_mem_margins {d : Char} (hd : d ∈ margins) : startsComment d = false :=
  not_startsComment_of_mem_itemMargins (List.mem_append_left _ hd)

lemma Ordinary.margins (hc : Ordinary itemMargins c) : Ordinary margins c :=
  ⟨hc.starts, fun h => hc.kept (List.mem_append_left _ h)⟩

lemma ordinary_of_isQuote (hc : Text.isQuote c = true) : Ordinary itemMargins c := by
  obtain rfl | rfl : c = '\'' ∨ c = '"' := by simpa [Text.isQuote] using hc
  · exact .of_check rfl
  · exact .of_check rfl

/-- The next part is an ordinary character behind trivia. -/
lemma IsLeft.nextPart_iff {k : Input} {s : Text} (hk : IsLeft i s k)
    (hc : Ordinary Input.margins c) :
    nextPart k = .ok (some c) j ↔
      ∃ u t, Trivia Input.margins u ∧ s = u ++ c :: t ∧ j = i.leaving t := by
  have hskip := hk.ready.next_skipTrivia_iff (j := j) hk.length_pushback_le
    (fun _ => not_startsComment_of_mem_margins) hc
  simp only [hk.pending_eq, hk.leaving_eq] at hskip
  refine Iff.trans (bind_eq_ok_iff.trans ?_) hskip
  constructor
  · rintro ⟨⟨⟩, l, hl, hnext⟩
    exact ⟨l, hl, hnext⟩
  · rintro ⟨l, hl, hnext⟩
    exact ⟨(), l, hl, hnext⟩

/-! ## Lists -/

/-- What a list that comes to something goes on with: its end or an item. -/
lemma readItems_eq_ok_iff {e : Char} {d : Option Char} {items : List Text} :
    i.readItems [e] d = .ok items j ↔
      d = some e ∧ items = [] ∧ j = i ∨
      ∃ q item rest d' i₁ i₂ i₃, d = some q ∧ Text.isQuote q = true ∧ q ≠ e ∧
        items = item :: rest ∧ i.readClosed [] q = .ok item i₁ ∧
        i₁.skipTrivia itemMargins = .ok () i₂ ∧ i₂.next = .ok d' i₃ ∧
        i₃.readItems [e] d' = .ok rest j := by
  fun_cases readItems [e] d i with grind

/-- A list goes on with an ordinary character. -/
lemma ordinary_of_readItems {e : Char} (he : Ordinary itemMargins e) {d : Option Char}
    {items : List Text} (h : i.readItems [e] d = .ok items j) :
    ∃ c, d = some c ∧ Ordinary itemMargins c := by
  obtain ⟨hd, -⟩ | ⟨q, _, _, _, _, _, _, hd, hq, -⟩ := readItems_eq_ok_iff.1 h
  · exact ⟨e, hd, he⟩
  · exact ⟨q, hd, ordinary_of_isQuote hq⟩

lemma Items.exists_cons {items : List Text} {t : Text} (ht : Items items t) {e : Char}
    (he : Ordinary itemMargins e) (rest : Text) :
    ∃ c s, t ++ e :: rest = c :: s ∧ Ordinary itemMargins c := by
  cases ht with
  | nil => exact ⟨e, rest, rfl, he⟩
  | cons hq => exact ⟨_, _, rfl, ordinary_of_isQuote hq⟩

/-- The items of a list that comes to something. -/
lemma Ready.of_readItems (hi : i.Ready) {e : Char} (he : Ordinary itemMargins e)
    {items : List Text} {s : Text} (h : (i.leaving s).readItems [e] (some c) = .ok items j) :
    ∃ t rest, Items items t ∧ c :: s = t ++ e :: rest ∧ j = i.leaving rest := by
  -- Each step of the reading gives one item, so the induction is on these.
  induction items generalizing c s with
  | nil =>
    obtain ⟨hc, -, rfl⟩ | ⟨_, _, _, _, _, _, _, -, -, -, hitems, -⟩ := readItems_eq_ok_iff.1 h
    · cases hc
      exact ⟨[], s, .nil, rfl, rfl⟩
    · cases hitems
  | cons item items ih =>
    obtain ⟨-, hitems, -⟩ | ⟨q, _, _, d, i₁, i₂, i₃, hc, hq, -, hitems, h₁, h₂, h₃, h₄⟩ :=
      readItems_eq_ok_iff.1 h
    · cases hitems
    cases hc
    cases hitems
    obtain ⟨before, after, hb, rfl, rfl, rfl⟩ :=
      (hi.readClosed_iff (backslash_ne_of_isQuote hq)).1 h₁
    -- That the list went on tells that the character after the gap is ordinary.
    obtain ⟨d, rfl, hd⟩ := ordinary_of_readItems he h₄
    obtain ⟨gap, s', hgap, hp, rfl⟩ := (hi.leaving after).of_skipTrivia (Nat.zero_le _)
      (fun _ => not_startsComment_of_mem_itemMargins) hd h₂ h₃
    obtain ⟨t, rest, ht, hs', rfl⟩ := ih h₄
    refine ⟨_, rest, .cons hq hb hgap ht, ?_, rfl⟩
    rw [pending_leaving] at hp
    rw [hp, hs']
    simp

/-- Items up to the end of a list are read. -/
lemma Ready.readItems_append (hi : i.Ready) {e : Char} (he : Ordinary itemMargins e)
    (hquote : Text.isQuote e = false) {items : List Text} {s t rest : Text} (ht : Items items t)
    (hs : c :: s = t ++ e :: rest) :
    (i.leaving s).readItems [e] (some c) = .ok items (i.leaving rest) := by
  -- By induction on the items: the gap behind an item ends at the next quote or at the end of the
  -- list.
  induction ht generalizing c s with
  | nil =>
    cases hs
    exact readItems_eq_ok_iff.2 (.inl ⟨rfl, rfl, rfl⟩)
  | @cons q item gap t items hq hitem hgap ht ih =>
    obtain ⟨d, s', hnext, hd⟩ := ht.exists_cons he rest
    obtain ⟨rfl, rfl⟩ : c = q ∧ s = item ++ q :: (gap ++ d :: s') := by
      simpa [← hnext] using hs
    have hne : c ≠ e := by
      rintro rfl
      cases hquote.symm.trans hq
    have hread : (i.leaving (item ++ c :: (gap ++ d :: s'))).readClosed [] c =
        .ok (unescape item) (i.leaving (gap ++ d :: s')) :=
      (hi.readClosed_iff (backslash_ne_of_isQuote hq)).2 ⟨item, _, hitem, rfl, rfl, rfl⟩
    obtain ⟨k, hk, hnext'⟩ := ((hi.leaving (gap ++ d :: s')).next_skipTrivia_iff (Nat.zero_le _)
      (fun _ => not_startsComment_of_mem_itemMargins) hd).2 ⟨gap, s', hgap, rfl, rfl⟩
    exact readItems_eq_ok_iff.2 (.inr ⟨c, _, items, some d, _, k, _, rfl, hq, hne, rfl, hread, hk,
      hnext', ih hnext.symm⟩)

lemma Ready.readList_iff (hi : i.Ready) {e : Char} (he : Ordinary itemMargins e)
    (hquote : Text.isQuote e = false) {items : List Text} {s : Text} :
    readList [e] (i.leaving s) = .ok items j ↔
      ∃ gap t rest, Trivia Input.margins gap ∧ Items items t ∧ s = gap ++ (t ++ e :: rest) ∧
        j = i.leaving rest := by
  constructor
  · intro h
    obtain ⟨d, k, hk, h⟩ := bind_eq_ok_iff.1 h
    obtain ⟨d, rfl, hd⟩ := ordinary_of_readItems he h
    obtain ⟨gap, s', hgap, rfl, rfl⟩ := ((hi.isLeft_leaving s).nextPart_iff hd.margins).1 hk
    obtain ⟨t, rest, ht, hs', rfl⟩ := hi.of_readItems he h
    exact ⟨gap, t, rest, hgap, ht, by rw [hs'], rfl⟩
  · rintro ⟨gap, t, rest, hgap, ht, rfl, rfl⟩
    obtain ⟨d, s', hnext, hd⟩ := ht.exists_cons he rest
    rw [hnext]
    have hk := ((hi.isLeft_leaving (gap ++ d :: s')).nextPart_iff hd.margins).2
      ⟨gap, s', hgap, rfl, rfl⟩
    exact bind_eq_ok_iff.2 ⟨some d, _, hk, hi.readItems_append he hquote ht hnext.symm⟩

/-! ## Tokens -/

/-- What trivia in front of a character can start with. -/
lemma Trivia.exists_cons {u : Text} (hu : Trivia Input.margins u) (c : Char) (t : Text) :
    ∃ d s, u ++ c :: t = d :: s ∧ (d = c ∨ d ∈ '#' :: '/' :: '<' :: Input.margins) := by
  cases hu with
  | nil => exact ⟨c, t, rfl, .inl rfl⟩
  | blank hc => exact ⟨_, _, rfl, .inr (by simp [hc])⟩
  | comment hu => cases hu <;> exact ⟨_, _, rfl, .inr (by simp)⟩

lemma Ready.readToken_leaving (hi : i.Ready) (extra s : Text) :
    ∃ k, readToken extra (i.leaving s) = .ok (s.takeWhile (tokenChar extra)) k ∧
      IsLeft i (s.dropWhile (tokenChar extra)) k := by
  refine ⟨_, (hi.leaving s).readWhile_eq (tokenChar extra), ?_⟩
  have happend := List.takeWhile_append_dropWhile (p := tokenChar extra) (l := s)
  rw [pending_leaving, drop_leaving]
  generalize s.takeWhile (tokenChar extra) = w, s.dropWhile (tokenChar extra) = r at happend ⊢
  subst happend
  rw [List.drop_length_add_append]
  cases r with
  | nil => exact hi.isLeft_leaving []
  | cons c t => exact ⟨(hi.leaving t).unread c, Nat.le_refl 1, rfl, fun _ => rfl⟩

/-- A token is read with the whole run of its characters. -/
lemma Ready.of_readToken (hi : i.Ready) {extra w s : Text}
    (h : readToken extra (i.leaving s) = .ok w j) :
    Token extra w ∧ ∃ t, s = w ++ t ∧ IsLeft i t j := by
  obtain ⟨k, hk, hleft⟩ := hi.readToken_leaving extra s
  cases hk.symm.trans h
  refine ⟨fun c hc => ?_, _, List.takeWhile_append_dropWhile.symm, hleft⟩
  exact List.all_eq_true.1 List.all_takeWhile c hc

/-- A token is as long as it can be, since no trivia go on with one of its characters. -/
lemma Ready.readToken_append (hi : i.Ready) {extra w u t : Text} (hw : Token extra w)
    (hu : Trivia Input.margins u) (hc : tokenChar extra c = false)
    (hextra : ('#' :: '/' :: '<' :: Input.margins).all (fun d => !tokenChar extra d) = true) :
    ∃ k, readToken extra (i.leaving (w ++ (u ++ c :: t))) = .ok w k ∧ IsLeft i (u ++ c :: t) k := by
  obtain ⟨d, s, hs, hd⟩ := hu.exists_cons c t
  -- Behind the word comes the sign or what starts trivia, and neither can stand in a word.
  have hstop : tokenChar extra d = false := by
    rcases hd with rfl | hd
    · exact hc
    · simpa using List.all_eq_true.1 hextra d hd
  obtain ⟨k, hk, hleft⟩ := hi.readToken_leaving extra (w ++ (u ++ c :: t))
  rw [hs] at hk hleft ⊢
  rw [List.takeWhile_append_of_pos hw, List.takeWhile_cons_of_neg (by simp [hstop]),
    List.append_nil] at hk
  rw [List.dropWhile_append_of_pos hw, List.dropWhile_cons_of_neg (by simp [hstop])] at hleft
  exact ⟨k, hk, hleft⟩

/-! ## Values -/

/-- The text of an output mapping behind `>`. -/
lemma Ready.readMapping_iff (hi : i.Ready) {name s : Text} {p : Pair} :
    readMapping name (i.leaving s) = .ok p j ↔
      ∃ t rest, ValueText i.targets name p ('>' :: t) ∧ s = t ++ rest ∧ j = i.leaving rest := by
  -- Neither of the two marks can be the start of trivia, so what is skipped before them is
  -- determined.
  have hdollar : Ordinary Input.margins '$' := .of_check rfl
  have hbrace : Ordinary Input.margins '{' := .of_check rfl
  rw [readMapping_eq_ok_iff]
  constructor
  · rintro ⟨target, key, i₁, i₂, i₃, i₄, h₁, h₂, htarget, h₃, h₄, rfl, rfl⟩
    obtain ⟨gap, s₁, hgap, rfl, rfl⟩ := ((hi.isLeft_leaving s).nextPart_iff hdollar).1 h₁
    obtain ⟨htoken, s₂, rfl, hleft⟩ := hi.of_readToken h₂
    obtain ⟨gap', s₃, hgap', rfl, rfl⟩ := (hleft.nextPart_iff hbrace).1 h₃
    obtain ⟨before, rest, hkey, rfl, rfl, rfl⟩ := (hi.readClosed_iff (by decide)).1 h₄
    have htargets : target ∈ i.targets := hleft.targets_eq ▸ htarget
    refine ⟨_, rest, .mapping hgap htoken htargets hgap' hkey, ?_, rfl⟩
    simp
  · rintro ⟨t, rest, ht, rfl, rfl⟩
    cases ht with
    | quoted hq => cases hq
    | @mapping gap target gap' key hgap htoken htarget hgap' hkey =>
      have hstop : tokenChar ['_', ':', '.'] '{' = false := rfl
      obtain ⟨k, hk, hleft⟩ :=
        hi.readToken_append (t := key ++ '}' :: rest) htoken hgap' hstop rfl
      have hfirst := ((hi.isLeft_leaving _).nextPart_iff hdollar).2
        ⟨gap, target ++ (gap' ++ '{' :: (key ++ '}' :: rest)), hgap, rfl, rfl⟩
      have hsecond := (hleft.nextPart_iff hbrace).2 ⟨gap', key ++ '}' :: rest, hgap', rfl, rfl⟩
      have hclosed : readClosed name '}' (i.leaving (key ++ '}' :: rest)) =
          .ok (unescape key) (i.leaving rest) :=
        (hi.readClosed_iff (by decide)).2 ⟨key, rest, hkey, rfl, rfl, rfl⟩
      exact ⟨target, unescape key, _, k, _, _, by simpa using hfirst, hk,
        hleft.targets_eq ▸ htarget, hsecond, hclosed, rfl, rfl⟩

/-- The forms of a value that comes to something, by its first character. -/
lemma readPairValue_eq_ok_iff {name : Text} {d : Option Char} {p : Pair} :
    readPairValue name true d i = .ok p j ↔
      d = some '>' ∧ readMapping name i = .ok p j ∨
      (∃ items, d = some '{' ∧ readList ['}'] i = .ok items j ∧
        p = { name, value := .list (items.map .str) }) ∨
      (∃ items, d = some '[' ∧ readList [']'] i = .ok items j ∧
        p = { name, value := .tuple (items.map .str) }) ∨
      ∃ q t, d = some q ∧ Text.isQuote q = true ∧ readClosed name q i = .ok t j ∧
        p = { name, value := .str t } := by
  constructor
  · intro h
    unfold readPairValue at h
    split at h
    · exact .inl ⟨rfl, h⟩
    · obtain ⟨items, hitems, rfl⟩ := bind_pure_eq_ok_iff.1 h
      exact .inr (.inl ⟨items, rfl, hitems, rfl⟩)
    · obtain ⟨items, hitems, rfl⟩ := bind_pure_eq_ok_iff.1 h
      exact .inr (.inr (.inl ⟨items, rfl, hitems, rfl⟩))
    · split at h
      · rename_i q _ _ _
        by_cases hq : Text.isQuote q = true
        · rw [if_pos hq] at h
          obtain ⟨t, ht, rfl⟩ := bind_pure_eq_ok_iff.1 h
          exact .inr (.inr (.inr ⟨q, t, rfl, hq, ht, rfl⟩))
        · rw [if_neg hq] at h
          cases h
      · cases h
  · rintro (⟨rfl, h⟩ | ⟨items, rfl, h, rfl⟩ | ⟨items, rfl, h, rfl⟩ | ⟨q, t, rfl, hq, h, rfl⟩)
    · exact h
    · exact bind_pure_eq_ok_iff.2 ⟨items, h, rfl⟩
    · exact bind_pure_eq_ok_iff.2 ⟨items, h, rfl⟩
    · obtain rfl | rfl : q = '\'' ∨ q = '"' := by simpa [Text.isQuote] using hq
      · exact bind_pure_eq_ok_iff.2 ⟨t, h, rfl⟩
      · exact bind_pure_eq_ok_iff.2 ⟨t, h, rfl⟩

/-- A value that comes to something starts with an ordinary character. -/
lemma ordinary_of_readPairValue {name : Text} {d : Option Char} {p : Pair}
    (h : readPairValue name true d i = .ok p j) : ∃ c, d = some c ∧ Ordinary Input.margins c := by
  obtain ⟨hd, -⟩ | ⟨_, hd, -⟩ | ⟨_, hd, -⟩ | ⟨q, _, hd, hq, -⟩ := readPairValue_eq_ok_iff.1 h
  · exact ⟨_, hd, .of_check rfl⟩
  · exact ⟨_, hd, .of_check rfl⟩
  · exact ⟨_, hd, .of_check rfl⟩
  · exact ⟨q, hd, (ordinary_of_isQuote hq).margins⟩

lemma ValueText.exists_cons {targets : List Text} {name t : Text} {p : Pair}
    (ht : ValueText targets name p t) : ∃ c s, t = c :: s ∧ Ordinary Input.margins c := by
  cases ht with
  | quoted hq => exact ⟨_, _, rfl, (ordinary_of_isQuote hq).margins⟩
  | list => exact ⟨_, _, rfl, .of_check rfl⟩
  | array => exact ⟨_, _, rfl, .of_check rfl⟩
  | mapping => exact ⟨_, _, rfl, .of_check rfl⟩

/-- The text of a value. -/
lemma Ready.readPairValue_iff (hi : i.Ready) {name s : Text} {p : Pair} :
    readPairValue name true (some c) (i.leaving s) = .ok p j ↔
      ∃ t rest, ValueText i.targets name p t ∧ c :: s = t ++ rest ∧ j = i.leaving rest := by
  have hbrace : Ordinary itemMargins '}' := .of_check rfl
  have hbracket : Ordinary itemMargins ']' := .of_check rfl
  rw [readPairValue_eq_ok_iff]
  constructor
  · rintro (⟨⟨⟩, h⟩ | ⟨items, ⟨⟩, h, rfl⟩ | ⟨items, ⟨⟩, h, rfl⟩ | ⟨q, t, ⟨⟩, hq, h, rfl⟩)
    · obtain ⟨t, rest, ht, rfl, rfl⟩ := hi.readMapping_iff.1 h
      exact ⟨_, rest, ht, rfl, rfl⟩
    · obtain ⟨gap, t, rest, hgap, ht, rfl, rfl⟩ := (hi.readList_iff hbrace rfl).1 h
      exact ⟨_, rest, .list hgap ht, by simp, rfl⟩
    · obtain ⟨gap, t, rest, hgap, ht, rfl, rfl⟩ := (hi.readList_iff hbracket rfl).1 h
      exact ⟨_, rest, .array hgap ht, by simp, rfl⟩
    · obtain ⟨before, rest, hb, rfl, rfl, rfl⟩ :=
        (hi.readClosed_iff (backslash_ne_of_isQuote hq)).1 h
      exact ⟨_, rest, .quoted hq hb, by simp, rfl⟩
  · rintro ⟨t, rest, ht, hs, rfl⟩
    cases ht with
    | @quoted quote value hq hvalue =>
      obtain ⟨rfl, rfl⟩ : c = quote ∧ s = value ++ quote :: rest := by simpa using hs
      have hclosed : readClosed name c (i.leaving (value ++ c :: rest)) =
          .ok (unescape value) (i.leaving rest) :=
        (hi.readClosed_iff (backslash_ne_of_isQuote hq)).2 ⟨value, rest, hvalue, rfl, rfl, rfl⟩
      exact .inr (.inr (.inr ⟨c, _, rfl, hq, hclosed, rfl⟩))
    | @list gap t items hgap ht =>
      obtain ⟨rfl, rfl⟩ : c = '{' ∧ s = gap ++ (t ++ '}' :: rest) := by simpa using hs
      exact .inr (.inl ⟨items, rfl,
        (hi.readList_iff hbrace rfl).2 ⟨gap, t, rest, hgap, ht, rfl, rfl⟩, rfl⟩)
    | @array gap t items hgap ht =>
      obtain ⟨rfl, rfl⟩ : c = '[' ∧ s = gap ++ (t ++ ']' :: rest) := by simpa using hs
      exact .inr (.inr (.inl ⟨items, rfl,
        (hi.readList_iff hbracket rfl).2 ⟨gap, t, rest, hgap, ht, rfl, rfl⟩, rfl⟩))
    | mapping hgap htoken htarget hgap' hkey =>
      cases hs
      have hmapping : ValueText i.targets name _ _ := .mapping hgap htoken htarget hgap' hkey
      exact .inl ⟨rfl, hi.readMapping_iff.2 ⟨_, rest, hmapping, rfl, rfl⟩⟩

/-! ## Pairs -/

/-- A fresh input over a text, with the targets that a host allows. -/
def fresh (targets : List Text) (t : Text) : Input := { ofText t with targets }

lemma readQuotedPair_eq :
    readQuotedPair = (do
      let name ← (readToken ['_', '.'] : Reading Text)
      let sign ← nextPart
      if sign = some '=' ∨ sign = some ':' then do
        let d ← nextPart
        readPairValue name true d
      else throw (.missingEquals name)) := rfl

/-- The steps of a pair that comes to something. -/
lemma readQuotedPair_eq_ok_iff {p : Pair} :
    readQuotedPair i = .ok p j ↔ ∃ name sign d i₁ i₂ i₃, readToken ['_', '.'] i = .ok name i₁ ∧
      nextPart i₁ = .ok (some sign) i₂ ∧ (sign = '=' ∨ sign = ':') ∧ nextPart i₂ = .ok d i₃ ∧
      readPairValue name true d i₃ = .ok p j := by
  rw [readQuotedPair_eq]
  constructor
  · intro h
    obtain ⟨name, i₁, h₁, h⟩ := bind_eq_ok_iff.1 h
    obtain ⟨sign, i₂, h₂, h⟩ := bind_eq_ok_iff.1 h
    split at h
    · rename_i hsign
      obtain ⟨d, i₃, h₃, h⟩ := bind_eq_ok_iff.1 h
      obtain rfl | rfl := hsign
      · exact ⟨name, '=', d, i₁, i₂, i₃, h₁, h₂, .inl rfl, h₃, h⟩
      · exact ⟨name, ':', d, i₁, i₂, i₃, h₁, h₂, .inr rfl, h₃, h⟩
    · cases h
  · rintro ⟨name, sign, d, i₁, i₂, i₃, h₁, h₂, hsign, h₃, h⟩
    refine bind_eq_ok_iff.2 ⟨name, i₁, h₁, bind_eq_ok_iff.2 ⟨some sign, i₂, h₂, ?_⟩⟩
    rw [if_pos (by simpa using hsign)]
    exact bind_eq_ok_iff.2 ⟨d, i₃, h₃, h⟩

/-- The text of a pair. -/
lemma Ready.readQuotedPair_iff (hi : i.Ready) {s : Text} {p : Pair} :
    readQuotedPair (i.leaving s) = .ok p j ↔
      ∃ t rest, PairText i.targets p t ∧ s = t ++ rest ∧ j = i.leaving rest := by
  have hordinary : ∀ {sign}, sign = '=' ∨ sign = ':' → Ordinary Input.margins sign := by
    rintro sign (rfl | rfl)
    · exact .of_check rfl
    · exact .of_check rfl
  rw [readQuotedPair_eq_ok_iff]
  constructor
  · rintro ⟨name, sign, d, i₁, i₂, i₃, h₁, h₂, hsign, h₃, h⟩
    obtain ⟨hname, s₁, rfl, hleft⟩ := hi.of_readToken h₁
    obtain ⟨gap, s₂, hgap, rfl, rfl⟩ := (hleft.nextPart_iff (hordinary hsign)).1 h₂
    obtain ⟨c, rfl, hc⟩ := ordinary_of_readPairValue h
    obtain ⟨gap', s₃, hgap', rfl, rfl⟩ := ((hi.isLeft_leaving s₂).nextPart_iff hc).1 h₃
    obtain ⟨t, rest, ht, hs, rfl⟩ := hi.readPairValue_iff.1 h
    refine ⟨_, rest, .intro hname hgap hsign hgap' ht, ?_, rfl⟩
    rw [hs]
    simp
  · rintro ⟨_, rest, ht, rfl, rfl⟩
    cases ht with
    | @intro name gap gap' t sign hname hgap hsign hgap' ht =>
      obtain ⟨c, s, rfl, hc⟩ := ht.exists_cons
      have hstop : tokenChar ['_', '.'] sign = false := by
        obtain rfl | rfl := hsign <;> rfl
      obtain ⟨k, hk, hleft⟩ := hi.readToken_append (t := gap' ++ c :: (s ++ rest)) hname hgap hstop
        rfl
      have hfirst := (hleft.nextPart_iff (hordinary hsign)).2 ⟨gap, _, hgap, rfl, rfl⟩
      have hsecond := ((hi.isLeft_leaving (gap' ++ c :: (s ++ rest))).nextPart_iff hc).2
        ⟨gap', s ++ rest, hgap', rfl, rfl⟩
      exact ⟨name, sign, some c, k, _, _, by simpa using hk, hfirst, hsign, hsecond,
        hi.readPairValue_iff.2 ⟨_, rest, ht, rfl, rfl⟩⟩

lemma readQuotedPair_fresh (targets : List Text) (t : Text) :
    readQuotedPair (fresh targets t) = readQuotedPair ((fresh targets t).leaving t) := by
  have hnext : (fresh targets t).next = ((fresh targets t).leaving t).next := by
    cases t <;> rfl
  exact bind_congr_left (readWhile_congr _ hnext)

/-- The text of a pair, from a fresh input. -/
lemma readQuotedPair_fresh_eq_ok_iff {targets : List Text} {t : Text} {p : Pair} :
    readQuotedPair (fresh targets t) = .ok p j ↔
      ∃ u rest, PairText targets p u ∧ t = u ++ rest ∧ j = (fresh targets t).leaving rest := by
  have hready : ((fresh targets t).leaving t).Ready := ⟨rfl, rfl⟩
  rw [readQuotedPair_fresh]
  exact hready.readQuotedPair_iff

/-- **Reading accepts exactly the texts of pairs.**  From a fresh input over a text, a pair is read
if and only if the text starts with one of the pair's texts, and what comes after that is left.  A
text that starts with no pair's text gives a fault of the text. -/
theorem readQuotedPair_fresh_iff (targets : List Text) (t : Text) :
    (∀ p j, readQuotedPair (fresh targets t) = .ok p j ↔
      ∃ u rest, PairText targets p u ∧ t = u ++ rest ∧ j = (fresh targets t).leaving rest) ∧
    ((∃ p u rest, PairText targets p u ∧ t = u ++ rest) ∨
      ∃ fault j, fault ≠ .closed ∧ readQuotedPair (fresh targets t) = .error fault j) := by
  refine ⟨fun p j => readQuotedPair_fresh_eq_ok_iff, ?_⟩
  cases h : readQuotedPair (fresh targets t) with
  | ok p j =>
    obtain ⟨u, rest, hu, ht, -⟩ := readQuotedPair_fresh_eq_ok_iff.1 h
    exact .inl ⟨p, u, rest, hu, ht⟩
  | error fault j =>
    have hfault := ((blamesText_readPair none true ['_', '.']).run rfl).of_error h
    exact .inr ⟨fault, j, hfault, rfl⟩

end Stencil.Input
