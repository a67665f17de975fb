import Stencil.Proofs.Input.Outside
import Stencil.Proofs.Pair.Grammar

/-!
# Values without quotes

Where quotes are not required, a value may run up to the `>` that ends its tag.  It is read as text
outside comments and quotes, so that characters which mean something there (`special`) have no place
in it.  The `>` is pushed back.  A slash before it has been tried as the start of a comment by then,
and kept; it makes the tag one that closes itself, so it is pushed back as well, and the whitespace
before it is dropped (`IsLeft.readUnquoted_eq`).

Behind a name such a value is read as it stands, and the end of the tag is left: this is
`readPair_unquoted`.  A value without a name has had its first word taken for one.  By the time that
this turns out to be wrong the spaces behind the word are gone, and a word that is the default name
is not told from a name that has been left out; `readPair_nameless_iff` has the values that come
through.
-/

namespace Stencil.Input

/-! ## Bare text -/

/-- The characters that do not stand for themselves in a value without quotes. -/
def special : Text := ['\'', '"', '\\', '#', '/', '<', '>']

section Bare

variable {c : Char} {u s t : Text}

lemma notMem_special_of_isBlank (hc : Text.isBlank c = true) : c ∉ special := fun h =>
  Bool.false_ne_true ((Text.eq_false_of_all (by decide) c h).symm.trans hc)

lemma notMem_special_of_isAlphanumeric (hc : Text.isAlphanumeric c = true) : c ∉ special :=
  fun h => Bool.false_ne_true ((Text.eq_false_of_all (by decide) c h).symm.trans hc)

lemma isQuote_of_notMem_special (hc : c ∉ special) : Text.isQuote c = false := by
  refine Bool.eq_false_iff.2 fun h => ?_
  obtain rfl | rfl : c = '\'' ∨ c = '"' := by simpa [Text.isQuote] using h
  · exact hc (by decide)
  · exact hc (by decide)

lemma startsComment_of_notMem_special (hc : c ∉ special) : startsComment c = false := by
  refine Bool.eq_false_iff.2 fun h => ?_
  obtain (rfl | rfl) | rfl : (c = '#' ∨ c = '/') ∨ c = '<' := by simpa [startsComment] using h
  · exact hc (by decide)
  · exact hc (by decide)
  · exact hc (by decide)

/-- Text without special characters is kept. -/
lemma outside_append (hu : ∀ c ∈ u, c ∉ special) (ht : Outside '>' s t) :
    Outside '>' (u ++ s) (u ++ t) := by
  induction u with
  | nil => exact ht
  | cons c u ih =>
    obtain ⟨hc, hu⟩ := List.forall_mem_cons.1 hu
    have hclosing : c ≠ '>' := by
      rintro rfl
      exact hc (by decide)
    have hb : c ≠ '\\' := by
      rintro rfl
      exact hc (by decide)
    exact .plain hclosing (isQuote_of_notMem_special hc) (startsComment_of_notMem_special hc) hb
      (ih hu)

/-- Skipping comes to a stop at the start of a value. -/
lemma ordinary_of_notMem_special (hc : c ∉ special) (hblank : Text.isBlank c = false) :
    Ordinary margins c := by
  refine ⟨startsComment_of_notMem_special hc, fun h => ?_⟩
  have hall : margins.all Text.isBlank = true := rfl
  exact Bool.false_ne_true (hblank.symm.trans (List.all_eq_true.1 hall c h))

end Bare

section Reading

variable {i k : Input} {s t after : Text}

/-- A value without quotes leaves the `>` that ends it, together with a slash before that. -/
lemma IsLeft.readUnquoted_eq (hi : i.Ready) (hk : IsLeft i (s ++ '>' :: after) k)
    (ht : Outside '>' s t) (start : Text) :
    readUnquoted start k =
      if t.getLast? = some '/' then
        .ok (start ++ Text.trim t.dropLast) (((i.leaving after).unread '>').unread '/')
      else .ok (start ++ t) ((i.leaving after).unread '>') := by
  have hread : readToOutside '>' k = .ok (t, true) (i.leaving after) := by
    rw [readToOutside_eq rfl]
    exact hk.readOutside_append hi rfl rfl ht
  unfold readUnquoted
  rw [bind_of_ok hread]
  split
  · rename_i h
    simp only [h]
    rfl
  · rename_i h
    simp only [h]
    rfl

/-- Text without special characters is the value as it stands. -/
lemma IsLeft.readUnquoted_bare (hi : i.Ready) (hk : IsLeft i (t ++ '>' :: after) k)
    (ht : ∀ c ∈ t, c ∉ special) (start : Text) :
    readUnquoted start k = .ok (start ++ t) ((i.leaving after).unread '>') := by
  have houtside : Outside '>' t t := by simpa using outside_append ht .nil
  have hslash : t.getLast? ≠ some '/' := fun h => ht '/' (List.mem_of_getLast? h) (by decide)
  rw [hk.readUnquoted_eq hi houtside, if_neg hslash]

/-- The steps of a pair that begins with a word. -/
lemma readPair_of_readToken {default? : Option Text} {requireQuotes : Bool} {extra word : Text}
    (hword : word ≠ []) (h : readToken extra i = .ok word k) :
    readPair default? requireQuotes extra i = (do
      let sign ← nextPart
      if sign = some '=' ∨ sign = some ':' then do
        let c ← nextPart
        readPairValue word requireQuotes c
      else if !requireQuotes ∧ default? ≠ some word then do
        giveBack sign
        return { name := default?.getD [], value := .str (← readUnquoted word) }
      else throw (InputFault.missingEquals word)) k := by
  have hempty : word.isEmpty = false := by simpa using hword
  unfold readPair
  rw [bind_of_ok h]
  cases default? with
  | none => rfl
  | some name =>
    rw [hempty]
    rfl

/-- The first read of a pair opens the input. -/
lemma readPair_leaving_rest (default? : Option Text) (requireQuotes : Bool) (extra : Text)
    (hp : i.pushback = []) :
    readPair default? requireQuotes extra (i.leaving i.rest) =
      readPair default? requireQuotes extra i :=
  bind_congr_left (readWhile_congr _ (next_leaving_rest hp))

end Reading

/-! ## Behind a name -/

/-- A value that can do without quotes behind the sign of its pair. -/
structure Unquoted (u : Text) : Prop where
  ne_nil : u ≠ []
  bare : ∀ c ∈ u, c ∉ special
  start : ∀ c ∈ u.head?, Text.isBlank c = false ∧ c ≠ '{' ∧ c ≠ '['
  finish : ∀ c ∈ u.getLast?, Text.isBlank c = false

/-- What stands between a value and the text behind its tag: whitespace that goes with the value,
and the end of the tag, which is left. -/
inductive TagEnd : Text → Text → Prop where
  | opening : TagEnd [] ['>']
  | selfClosing {blanks : Text} (hblanks : ∀ c ∈ blanks, Text.isBlank c = true) :
    TagEnd blanks ['/', '>']

section Named

variable {default? : Option Text} {i k : Input} {name u blanks gap left after : Text}

/-- Trimming takes off the whitespace behind a value and nothing of the value. -/
lemma Unquoted.trim_append (hu : Unquoted u) (hblanks : ∀ c ∈ blanks, Text.isBlank c = true) :
    Text.trim (u ++ blanks) = u := by
  have hstart : (u ++ blanks).dropWhile Text.isBlank = u ++ blanks := by
    obtain ⟨c, t, rfl⟩ := List.exists_cons_of_ne_nil hu.ne_nil
    exact List.dropWhile_cons_of_neg (by simp [(hu.start c rfl).1])
  have hfinish : u.reverse.dropWhile Text.isBlank = u.reverse := by
    obtain ⟨t, c, rfl⟩ := (List.eq_nil_or_concat u).resolve_left hu.ne_nil
    rw [List.concat_eq_append, List.reverse_concat]
    exact List.dropWhile_cons_of_neg (by simp [hu.finish c (by simp)])
  rw [Text.trim, Text.trimWhere, hstart, List.reverse_append, List.dropWhile_append_of_pos, hfinish,
    List.reverse_reverse]
  intro c hc
  exact hblanks c (List.mem_reverse.1 hc)

/-- A value without quotes is read up to the end of its tag, which is left. -/
lemma Unquoted.readUnquoted_eq_ok (hi : i.Ready) (hu : Unquoted u) (hend : TagEnd gap left)
    (hk : IsLeft i (u ++ (gap ++ (left ++ after))) k) :
    readUnquoted [] k = .ok u { i.leaving after with pushback := left } := by
  cases hend with
  | opening => exact hk.readUnquoted_bare hi hu.bare []
  | selfClosing hblanks =>
    have hbare : ∀ c ∈ u ++ gap, c ∉ special := by
      intro c hc
      rcases List.mem_append.1 hc with hc | hc
      · exact hu.bare c hc
      · exact notMem_special_of_isBlank (hblanks c hc)
    -- The slash before the end begins no comment, for the end of the tag follows it.
    have houtside : Outside '>' (u ++ gap ++ ['/']) (u ++ gap ++ ['/']) :=
      outside_append hbare (.slash (by decide) (by decide) .nil)
    have hk' : IsLeft i (u ++ gap ++ ['/'] ++ '>' :: after) k := by simpa using hk
    rw [hk'.readUnquoted_eq hi houtside, if_pos List.getLast?_concat, List.dropLast_concat,
      hu.trim_append hblanks]
    rfl

/-- What begins like a value without quotes is read as one. -/
lemma readPairValue_bare {c : Char} (hc : c ∉ special) (hbrace : c ≠ '{') (hbracket : c ≠ '[') :
    readPairValue name false (some c) = (do
      giveBack (some c)
      return { name, value := .str (← readUnquoted []) }) := by
  have hclosing : c ≠ '>' := by
    rintro rfl
    exact hc (by decide)
  simp [readPairValue, hclosing, hbrace, hbracket, isQuote_of_notMem_special hc]

/-- **A value without quotes leaves the end of its tag.** Let nothing have been pushed back on an
input that is not closed, and let it begin with a name, the sign, and a value that can do without
quotes, up to the end of a tag.  The pair is read as it stands, whatever the default name is, and
what is left begins with the `>`, or with the slash and the `>` of a tag that closes itself.  The
whitespace before this slash is dropped. -/
theorem readPair_unquoted (hp : i.pushback = []) (hclosed : i.isClosed = false)
    (hname : Token ['_', '.'] name) (hne : name ≠ []) (hu : Unquoted u) (hend : TagEnd gap left)
    (hr : i.rest = name ++ '=' :: (u ++ (gap ++ (left ++ after)))) :
    readPair default? false ['_', '.'] i =
      .ok { name, value := .str u } { i.leaving after with pushback := left } := by
  have hi : (i.leaving i.rest).Ready := ⟨rfl, hclosed⟩
  obtain ⟨c, t, rfl⟩ := List.exists_cons_of_ne_nil hu.ne_nil
  obtain ⟨hblank, hbrace, hbracket⟩ := hu.start c rfl
  have hc : c ∉ special := hu.bare c List.mem_cons_self
  obtain ⟨k, hword, hleft⟩ := hi.readToken_append (c := '=')
    (t := c :: t ++ (gap ++ (left ++ after))) hname .nil rfl rfl
  rw [List.nil_append, ← hr, leaving_leaving] at hword
  have hsign : nextPart k = .ok (some '=') (i.leaving (c :: t ++ (gap ++ (left ++ after)))) :=
    (hleft.nextPart_iff (.of_check rfl)).2 ⟨[], _, .nil, rfl, rfl⟩
  -- The first character of the value is read to decide on its form, and pushed back for the value
  -- to be read whole.
  have hfirst : nextPart (i.leaving (c :: t ++ (gap ++ (left ++ after)))) =
      .ok (some c) (i.leaving (t ++ (gap ++ (left ++ after)))) :=
    ((hi.isLeft_leaving _).nextPart_iff (ordinary_of_notMem_special hc hblank)).2
      ⟨[], _, .nil, rfl, rfl⟩
  have hback : (i.leaving i.rest).IsLeft (c :: t ++ (gap ++ (left ++ after)))
      ((i.leaving (t ++ (gap ++ (left ++ after)))).unread c) := hi.isLeft_peeked _
  have hvalue := hu.readUnquoted_eq_ok hi hend hback
  rw [← readPair_leaving_rest default? false _ hp, readPair_of_readToken hne hword,
    bind_of_ok hsign, if_pos (.inl rfl), bind_of_ok hfirst, readPairValue_bare hc hbrace hbracket]
  exact bind_pure_eq_ok_iff.2 ⟨_, hvalue, rfl⟩

end Named

/-- An input with the last pair of a tag that closes itself. -/
def selfClosingTag : Input := ofText "size=1 0 />\n".toList

/-- The space before the slash is dropped, the one in the value is not. -/
theorem readPair_unquoted_selfClosing :
    selfClosingTag.pushback = [] ∧ selfClosingTag.isClosed = false ∧
      Token ['_', '.'] "size".toList ∧ "size".toList ≠ [] ∧ Unquoted "1 0".toList ∧
      TagEnd [' '] ['/', '>'] ∧
      selfClosingTag.rest =
        "size".toList ++ '=' :: ("1 0".toList ++ ([' '] ++ (['/', '>'] ++ ['\n']))) ∧
      readPair none false ['_', '.'] selfClosingTag =
        .ok { name := "size".toList, value := .str "1 0".toList }
          { selfClosingTag.leaving ['\n'] with pushback := ['/', '>'] } := by
  have hname : Token ['_', '.'] "size".toList := List.all_eq_true.1 rfl
  have hvalue : Unquoted "1 0".toList := {
    ne_nil := by decide
    bare := fun c hc => by simpa using Text.eq_false_of_all (p := special.contains) rfl c hc
    start := fun c hc => by
      cases hc
      decide
    finish := fun c hc => by
      cases hc
      rfl }
  have hend : TagEnd [' '] ['/', '>'] := .selfClosing (List.all_eq_true.1 rfl)
  exact ⟨rfl, rfl, hname, by decide, hvalue, hend, rfl,
    readPair_unquoted rfl rfl hname (by decide) hvalue hend rfl⟩

/-! ## Without a name -/

/-- A text of words and spaces that begins with a word. -/
structure Words (u : Text) : Prop where
  chars : Token [' '] u
  start : ∃ c ∈ u.head?, Text.isAlphanumeric c = true

/-- The first word of a text, which is taken for a name. -/
def firstWord (u : Text) : Text := u.takeWhile Text.isAlphanumeric

/-- What stands behind the first word and the spaces after it. -/
def otherWords (u : Text) : Text := (u.dropWhile Text.isAlphanumeric).dropWhile (· == ' ')

section Nameless

variable {d : Text} {i k : Input} {u after : Text}

/-- The characters of a class end before one that is not of the class. -/
lemma eq_false_of_dropWhile {p : Char → Bool} {c : Char} {t : Text} (h : u.dropWhile p = c :: t) :
    p c = false := by
  have hhead := List.head?_dropWhile_not p u
  rwa [h] at hhead

lemma mem_of_dropWhile {p : Char → Bool} {c : Char} (h : c ∈ u.dropWhile p) : c ∈ u :=
  (List.dropWhile_suffix p).subset h

lemma trivia_of_spaces {spaces : Text} (h : ∀ c ∈ spaces, c = ' ') : Trivia margins spaces := by
  induction spaces with
  | nil => exact .nil
  | cons c spaces ih =>
    obtain ⟨hc, h⟩ := List.forall_mem_cons.1 h
    exact .blank (by simp [hc, margins]) (ih h)

lemma firstWord_append (u : Text) : firstWord u ++ u.dropWhile Text.isAlphanumeric = u :=
  List.takeWhile_append_dropWhile

/-- Between the first word and the others there are spaces. -/
lemma exists_spaces (u : Text) : ∃ spaces, Trivia margins spaces ∧
    u.dropWhile Text.isAlphanumeric = spaces ++ otherWords u := by
  refine ⟨(u.dropWhile Text.isAlphanumeric).takeWhile (· == ' '), trivia_of_spaces fun c hc => ?_,
    List.takeWhile_append_dropWhile.symm⟩
  simpa using List.all_eq_true.1 List.all_takeWhile c hc

lemma token_firstWord (u : Text) : Token ['_', '.'] (firstWord u) := by
  intro c hc
  have halpha : Text.isAlphanumeric c = true := List.all_eq_true.1 List.all_takeWhile c hc
  rw [tokenChar, halpha, Bool.true_or]

namespace Words

lemma alphanumeric_or_space (hu : Words u) : ∀ c ∈ u, Text.isAlphanumeric c = true ∨ c = ' ' := by
  intro c hc
  simpa [tokenChar] using hu.chars c hc

lemma notMem_special (hu : Words u) : ∀ c ∈ u, c ∉ special := by
  intro c hc
  rcases hu.alphanumeric_or_space c hc with halpha | rfl
  · exact notMem_special_of_isAlphanumeric halpha
  · decide

lemma firstWord_ne_nil (hu : Words u) : firstWord u ≠ [] := by
  obtain ⟨c, hc, halpha⟩ := hu.start
  cases u with
  | nil => cases hc
  | cons d u =>
    cases hc
    simp [firstWord, halpha]

/-- There is one word, or a space behind the first one. -/
lemma dropWhile_eq (hu : Words u) : u.dropWhile Text.isAlphanumeric = [] ∨
    ∃ t, u.dropWhile Text.isAlphanumeric = ' ' :: t := by
  cases h : u.dropWhile Text.isAlphanumeric with
  | nil => exact .inl rfl
  | cons c t =>
    have hmem : c ∈ u := mem_of_dropWhile (by rw [h]; exact List.mem_cons_self)
    rcases hu.alphanumeric_or_space c hmem with halpha | rfl
    · cases halpha.symm.trans (eq_false_of_dropWhile h)
    · exact .inr ⟨t, rfl⟩

/-- The first word is all of the token that the text begins with. -/
lemma exists_afterWord (hu : Words u) (after : Text) : ∃ c t,
    u.dropWhile Text.isAlphanumeric ++ '>' :: after = c :: t ∧ tokenChar ['_', '.'] c = false := by
  rcases hu.dropWhile_eq with h | ⟨t, h⟩
  · exact ⟨'>', after, by rw [h]; rfl, rfl⟩
  · exact ⟨' ', t ++ '>' :: after, by rw [h]; rfl, rfl⟩

/-- Where the sign is looked for there is another word or the end of the tag. -/
lemma exists_sign (hu : Words u) (after : Text) : ∃ c t, otherWords u ++ '>' :: after = c :: t ∧
    Ordinary margins c ∧ c ≠ '=' ∧ c ≠ ':' := by
  cases h : otherWords u with
  | nil => exact ⟨'>', after, rfl, .of_check rfl, by decide, by decide⟩
  | cons c t =>
    have hmem : c ∈ u := mem_of_dropWhile (mem_of_dropWhile (by
      rw [← otherWords, h]
      exact List.mem_cons_self))
    have hspace : c ≠ ' ' := by simpa using eq_false_of_dropWhile h
    have halpha := (hu.alphanumeric_or_space c hmem).resolve_right hspace
    exact ⟨c, t ++ '>' :: after, rfl, .of_isAlphanumeric halpha,
      Text.ne_of_isAlphanumeric halpha rfl, Text.ne_of_isAlphanumeric halpha rfl⟩

lemma dropWhile_eq_nil_iff (hu : Words u) : u.dropWhile Text.isAlphanumeric = [] ↔ ' ' ∉ u := by
  constructor
  · intro h hspace
    rw [← firstWord_append u, h, List.append_nil] at hspace
    cases List.all_eq_true.1 List.all_takeWhile ' ' hspace
  · intro h
    refine hu.dropWhile_eq.resolve_right fun ⟨t, ht⟩ => h ?_
    exact mem_of_dropWhile (ht ▸ List.mem_cons_self)

lemma firstWord_eq (hu : Words u) (h : ' ' ∉ u) : firstWord u = u := by
  have hsplit := firstWord_append u
  rwa [hu.dropWhile_eq_nil_iff.2 h, List.append_nil] at hsplit

/-- The words are all of the text if there is no more than one. -/
lemma append_eq_iff (hu : Words u) : firstWord u ++ otherWords u = u ↔ ' ' ∉ u := by
  rw [← hu.dropWhile_eq_nil_iff]
  constructor
  · intro heq
    have hothers : otherWords u = u.dropWhile Text.isAlphanumeric :=
      List.append_cancel_left (heq.trans (firstWord_append u).symm)
    refine hu.dropWhile_eq.resolve_right fun ⟨t, ht⟩ => ?_
    cases eq_false_of_dropWhile (hothers.trans ht)
  · intro h
    rw [otherWords, h, List.dropWhile_nil, ← h, firstWord_append]

end Words

/-- Words without a name come to the default name without the spaces behind the first one, unless
this one is the default name. -/
lemma readPair_words (hp : i.pushback = []) (hclosed : i.isClosed = false) (hu : Words u)
    (hr : i.rest = u ++ '>' :: after) (d : Text) :
    readPair (some d) false ['_', '.'] i =
      if firstWord u = d then
        .error (.missingEquals d) (i.leaving ((otherWords u ++ '>' :: after).drop 1))
      else .ok { name := d, value := .str (firstWord u ++ otherWords u) }
        ((i.leaving after).unread '>') := by
  have hi : (i.leaving i.rest).Ready := ⟨rfl, hclosed⟩
  rw [← readPair_leaving_rest _ _ _ hp]
  obtain ⟨e, s, hs, hstop⟩ := hu.exists_afterWord after
  obtain ⟨c, t, ht, hc, hequals, hcolon⟩ := hu.exists_sign after
  obtain ⟨spaces, hspaces, hgap⟩ := exists_spaces u
  obtain ⟨k, hword, hleft⟩ := hi.readToken_append (t := s) (token_firstWord u) .nil hstop rfl
  -- The spaces behind the first word are skipped here as what may stand before the sign, and are
  -- lost.
  have hsign : nextPart k = .ok (some c) (i.leaving t) :=
    (hleft.nextPart_iff hc).2 ⟨spaces, t, hspaces, by
      rw [List.nil_append, ← hs, hgap, List.append_assoc, ht], rfl⟩
  have hall : firstWord u ++ ([] ++ e :: s) = i.rest := by
    rw [hr, List.nil_append, ← hs, ← List.append_assoc, firstWord_append]
  rw [hall, leaving_leaving] at hword
  rw [readPair_of_readToken hu.firstWord_ne_nil hword, bind_of_ok hsign,
    if_neg (by simp [hequals, hcolon])]
  by_cases hd : firstWord u = d
  · rw [if_pos hd, if_neg (by simp [hd]), hd, ht]
    rfl
  · have hback : (i.leaving i.rest).IsLeft (otherWords u ++ '>' :: after)
        ((i.leaving t).unread c) := by
      rw [ht]
      exact hi.isLeft_peeked (c :: t)
    have hbare : ∀ c ∈ otherWords u, c ∉ special := fun c hc =>
      hu.notMem_special c (mem_of_dropWhile (mem_of_dropWhile hc))
    have hvalue := hback.readUnquoted_bare hi hbare (firstWord u)
    rw [if_neg hd, if_pos (by simp [Ne.symm hd])]
    exact bind_pure_eq_ok_iff.2 ⟨_, hvalue, rfl⟩

/-- **A value without a name goes to the default name whole exactly if it is one word and not that
name.**  Let nothing have been pushed back on an input that is not closed, and let it begin with
words and the `>` of a tag.  The first word is taken for a name before it is known to be none, and
the spaces behind it are skipped with what may stand before a sign; so they are missing in the value
that the words are joined to.  A first word that is the default name is missing its sign. -/
theorem readPair_nameless_iff (hp : i.pushback = []) (hclosed : i.isClosed = false) (hu : Words u)
    (hr : i.rest = u ++ '>' :: after) (d : Text) :
    (firstWord u = d → ∃ j, readPair (some d) false ['_', '.'] i = .error (.missingEquals d) j) ∧
      (firstWord u ≠ d → readPair (some d) false ['_', '.'] i =
        .ok { name := d, value := .str (firstWord u ++ otherWords u) }
          ((i.leaving after).unread '>')) ∧
      (readPair (some d) false ['_', '.'] i =
          .ok { name := d, value := .str u } ((i.leaving after).unread '>') ↔
        ' ' ∉ u ∧ u ≠ d) := by
  rw [readPair_words hp hclosed hu hr]
  refine ⟨fun hd => ⟨_, if_pos hd⟩, fun hd => if_neg hd, fun h => ?_, fun ⟨hspace, hne⟩ => ?_⟩
  · by_cases hd : firstWord u = d
    · rw [if_pos hd] at h
      cases h
    · rw [if_neg hd] at h
      have hspace : ' ' ∉ u := hu.append_eq_iff.1 (by simpa using h)
      exact ⟨hspace, by rwa [hu.firstWord_eq hspace] at hd⟩
  · rw [if_neg (by rwa [hu.firstWord_eq hspace]), hu.append_eq_iff.2 hspace]

end Nameless

/-- An input with one word, and the end of its tag. -/
def lonelyWord : Input := ofText "checked>".toList

/-- A word that is not the default name is the value of the default name, and the end of the tag is
put back. -/
theorem readPair_nameless_iff_word :
    lonelyWord.pushback = [] ∧ lonelyWord.isClosed = false ∧ Words "checked".toList ∧
      lonelyWord.rest = "checked".toList ++ '>' :: [] ∧
      readPair (some "value".toList) false ['_', '.'] lonelyWord =
        .ok { name := "value".toList, value := .str "checked".toList }
          ((lonelyWord.leaving []).unread '>') := by
  have hwords : Words "checked".toList := ⟨List.all_eq_true.1 rfl, _, rfl, rfl⟩
  exact ⟨rfl, rfl, hwords, rfl,
    (readPair_nameless_iff rfl rfl hwords rfl "value".toList).2.2.2 ⟨by decide, by decide⟩⟩

/-- An input with two words, and the end of their tag. -/
def spacedWords : Input := ofText "a b>".toList

/-- Two words are joined, and a fault if the first is the default name. -/
theorem readPair_nameless_joined :
    Words "a b".toList ∧ spacedWords.rest = "a b".toList ++ '>' :: [] ∧
      readPair (some "value".toList) false ['_', '.'] spacedWords =
        .ok { name := "value".toList, value := .str "ab".toList }
          ((spacedWords.leaving []).unread '>') ∧
      ∃ j, readPair (some "a".toList) false ['_', '.'] spacedWords =
        .error (.missingEquals "a".toList) j := by
  have hwords : Words "a b".toList := ⟨List.all_eq_true.1 rfl, _, rfl, rfl⟩
  have hrest : spacedWords.rest = "a b".toList ++ '>' :: [] := rfl
  have hrun := readPair_words rfl rfl hwords hrest
  exact ⟨hwords, hrest, hrun "value".toList, _, hrun "a".toList⟩

end Stencil.Input
