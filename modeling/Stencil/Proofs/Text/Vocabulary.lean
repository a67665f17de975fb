import Mathlib.Data.List.TakeWhile
import Mathlib.Tactic.Lemma
import Stencil.Template.Token

/-!
# Vocabularies

Texts are put together from pieces, and taken apart at whitespace, quotes, marks and operators.  A
`Vocabulary` is a class of texts that is closed under both: it has what is put together of its
texts, and the texts on both sides of a separator in one of its texts.  The texts over an alphabet
are one (`Vocabulary.ofLetters`), and so is what can be written with given words
(`Vocabulary.ofWords`).

This file says what the operations on texts come to for a text in a vocabulary.
-/

namespace Stencil

/-! ## Separators -/

/-- The separators apart from whitespace. -/
def separators : Text :=
  ['$', '#', '{', '}', '(', ')', '[', ',', '.', '\'', '"', '\\', Template.escapeMark, '=', '<', '>',
   '!', '&', '|', '%', '/', '*', '+', '-', '?']

/-- Whether texts are taken apart at a character. -/
def isSeparator (c : Char) : Bool := Text.isBlank c || separators.contains c

lemma isSeparator_of_mem {c : Char} (hc : c ∈ separators) : isSeparator c = true := by
  simp [isSeparator, hc]

lemma isSeparator_of_isBlank {c : Char} (hc : Text.isBlank c = true) : isSeparator c = true := by
  simp [isSeparator, hc]

lemma isSeparator_of_isQuote {c : Char} (hc : Text.isQuote c = true) : isSeparator c = true := by
  obtain rfl | rfl : c = '\'' ∨ c = '"' := by simpa [Text.isQuote] using hc
  · exact isSeparator_of_mem (by decide)
  · exact isSeparator_of_mem (by decide)

/-! ## Vocabularies -/

/-- A class of texts that is closed under putting together, and under taking apart at separators. -/
structure Vocabulary where
  Writes : Text → Prop
  nil : Writes []
  append : ∀ {s t : Text}, Writes s → Writes t → Writes (s ++ t)
  separate : ∀ {s t : Text} {c : Char}, isSeparator c = true → Writes (s ++ c :: t) →
    Writes s ∧ Writes [c] ∧ Writes t

namespace Vocabulary

/-- The texts over an alphabet. -/
def ofLetters (letter : Char → Prop) : Vocabulary where
  Writes t := ∀ c ∈ t, letter c
  nil := List.forall_mem_nil _
  append hs ht := List.forall_mem_append.2 ⟨hs, ht⟩
  separate _ h := by simpa [or_imp, forall_and] using h

/-- Whether a text is not taken apart itself: it is at most a character, or has no separators. -/
def isWord (w : Text) : Bool := w.length ≤ 1 || w.all (!isSeparator ·)

lemma eq_nil_of_isWord {s t : Text} {c : Char} (hc : isSeparator c = true)
    (h : isWord (s ++ c :: t) = true) : s = [] ∧ t = [] := by
  have hplain : (s ++ c :: t).all (!isSeparator ·) = false := by simp [hc]
  have hlength : s.length + (t.length + 1) ≤ 1 := by simpa [isWord, hplain] using h
  exact ⟨List.eq_nil_of_length_eq_zero (by omega), List.eq_nil_of_length_eq_zero (by omega)⟩

/-- A text that is put together from words. -/
def Spelled (words : List Text) (t : Text) : Prop := ∃ parts, parts ⊆ words ∧ parts.flatten = t

section Spelled

variable {words : List Text} {s t : Text} {c : Char}

lemma Spelled.append (hs : Spelled words s) (ht : Spelled words t) : Spelled words (s ++ t) := by
  obtain ⟨p, hp, rfl⟩ := hs
  obtain ⟨q, hq, rfl⟩ := ht
  exact ⟨p ++ q, List.append_subset.2 ⟨hp, hq⟩, List.flatten_append⟩

/-- A separator in a text is one of the words that the text is put together from. -/
lemma Spelled.separate (hwords : words.all isWord = true) (hc : isSeparator c = true)
    (h : Spelled words (s ++ c :: t)) : Spelled words s ∧ Spelled words [c] ∧ Spelled words t := by
  have hword : ∀ b a : Text, b ++ c :: a ∈ words → (b = [] ∧ a = []) ∧ Spelled words [c] := by
    intro b a hmem
    obtain ⟨rfl, rfl⟩ := eq_nil_of_isWord hc (List.all_eq_true.1 hwords _ hmem)
    exact ⟨⟨rfl, rfl⟩, [[c]], List.cons_subset.2 ⟨hmem, List.nil_subset _⟩, rfl⟩
  obtain ⟨parts, hparts, hflat⟩ := h
  -- The separator begins one of the words or stands within one; it can be in no word but itself.
  rcases List.flatten_eq_append_iff.1 hflat with
    ⟨before, rest, rfl, rfl, hrest⟩ | ⟨before, b, d, a, after, rfl, rfl, hrest⟩
  · obtain ⟨gap, a, after, rfl, -, rfl⟩ := List.flatten_eq_cons_iff.1 hrest.symm
    obtain ⟨⟨-, rfl⟩, hmark⟩ := hword [] a (hparts (by simp))
    exact ⟨⟨before, fun w hw => hparts (by simp [hw]), rfl⟩, hmark,
      ⟨after, fun w hw => hparts (by simp [hw]), rfl⟩⟩
  · obtain ⟨rfl, rfl⟩ : c = d ∧ t = a ++ after.flatten := by simpa using hrest
    obtain ⟨⟨rfl, rfl⟩, hmark⟩ := hword b a (hparts (by simp))
    exact ⟨⟨before, fun w hw => hparts (by simp [hw]), by simp⟩, hmark,
      ⟨after, fun w hw => hparts (by simp [hw]), rfl⟩⟩

/-- A text is still put together from words after a change of characters that makes of each word
something that is. -/
lemma Spelled.flatMap {f : Char → Text} (hf : ∀ w ∈ words, Spelled words (w.flatMap f))
    (h : Spelled words t) : Spelled words (t.flatMap f) := by
  obtain ⟨parts, hparts, rfl⟩ := h
  induction parts with
  | nil => exact ⟨[], List.nil_subset _, rfl⟩
  | cons w parts ih =>
    obtain ⟨hw, hparts⟩ := List.cons_subset.1 hparts
    rw [List.flatten_cons, List.flatMap_append]
    exact (hf w hw).append (ih hparts)

/-- The first of the words that a text is put together from. -/
lemma Spelled.exists_word (h : Spelled words (c :: t)) :
    ∃ w ∈ words, w ≠ [] ∧ w <+: c :: t ∧ Spelled words ((c :: t).drop w.length) := by
  obtain ⟨parts, hparts, hflat⟩ := h
  obtain ⟨gap, w, after, rfl, -, hrest⟩ := List.flatten_eq_cons_iff.1 hflat
  refine ⟨c :: w, hparts (by simp), List.cons_ne_nil _ _, ⟨after.flatten, by simp [hrest]⟩, ?_⟩
  refine ⟨after, fun u hu => hparts (by simp [hu]), ?_⟩
  simp [hrest]

/-- A text starts as one of the words does that it is put together from. -/
lemma Spelled.head?_mem (h : Spelled words (c :: t)) : some c ∈ words.map List.head? := by
  obtain ⟨w, hw, hne, ⟨rest, hrest⟩, -⟩ := h.exists_word
  refine List.mem_map.2 ⟨w, hw, ?_⟩
  cases w with
  | nil => exact absurd rfl hne
  | cons d w => exact congrArg some (List.cons.inj hrest).1

end Spelled

/-- What can be written with some words. -/
def ofWords (words : List Text) (hwords : words.all isWord = true) : Vocabulary where
  Writes := Spelled words
  nil := ⟨[], List.nil_subset _, rfl⟩
  append := Spelled.append
  separate := Spelled.separate hwords

/-! ## Texts -/

variable {V : Vocabulary} {s t : Text} {c : Char}

lemma writes_separated (hc : isSeparator c = true) :
    V.Writes (s ++ c :: t) ↔ V.Writes s ∧ V.Writes [c] ∧ V.Writes t :=
  ⟨V.separate hc, fun ⟨hs, hmark, ht⟩ => V.append hs (V.append hmark ht)⟩

lemma writes_cons (hc : isSeparator c = true) : V.Writes (c :: t) ↔ V.Writes [c] ∧ V.Writes t := by
  have h := writes_separated (V := V) (s := []) (t := t) hc
  simpa [V.nil] using h

/-- What stands between two separators, and behind them. -/
lemma writes_between {u : Text} {d : Char} (hc : isSeparator c = true) (hd : isSeparator d = true)
    (h : V.Writes (s ++ c :: (t ++ d :: u))) : V.Writes t ∧ V.Writes u := by
  obtain ⟨-, -, hrest⟩ := V.separate hc h
  obtain ⟨ht, -, hu⟩ := V.separate hd hrest
  exact ⟨ht, hu⟩

/-- Separators at the start can be left out. -/
lemma writes_of_separators_append (hs : s.all isSeparator = true) (h : V.Writes (s ++ t)) :
    V.Writes t := by
  induction s with
  | nil => exact h
  | cons c s ih =>
    obtain ⟨hc, hs⟩ : isSeparator c = true ∧ s.all isSeparator = true := by simpa using hs
    exact ih hs ((writes_cons hc).1 h).2

/-- Separators at the end can be left out. -/
lemma writes_of_append_separators (hs : s.all isSeparator = true) (h : V.Writes (t ++ s)) :
    V.Writes t := by
  cases s with
  | nil => rwa [List.append_nil] at h
  | cons c s => exact (V.separate (List.all_eq_true.1 hs c List.mem_cons_self) h).1

section Class

variable {p : Char → Bool}

lemma eq_false_of_dropWhile {rest : Text} (h : t.dropWhile p = c :: rest) : p c = false := by
  have hhead := List.head_dropWhile_not (l := t) p (by simp [h])
  simpa [h] using hhead

/-- Separators can be left out wherever they are. -/
lemma writes_append_filter (hp : ∀ c, p c = false → isSeparator c = true)
    (h : V.Writes (s ++ t)) : V.Writes (s ++ t.filter p) := by
  -- By induction on the text; what has been passed stays in front, for only at a separator may it
  -- be cut.
  induction t generalizing s with
  | nil => exact h
  | cons c t ih =>
    cases hc : p c with
    | true =>
      rw [List.filter_cons_of_pos hc, List.append_cons]
      exact ih (List.append_cons s c t ▸ h)
    | false =>
      rw [List.filter_cons_of_neg (by simp [hc])]
      obtain ⟨hs, -, ht⟩ := V.separate (hp c hc) h
      exact V.append hs (ih (s := []) ht)

lemma writes_filter (hp : ∀ c, p c = false → isSeparator c = true) (h : V.Writes t) :
    V.Writes (t.filter p) := writes_append_filter (s := []) hp h

/-- A text is taken apart in front of the first character that is not in a class. -/
lemma writes_span (hp : ∀ c, p c = false → isSeparator c = true) (h : V.Writes t) :
    V.Writes (t.takeWhile p) ∧ V.Writes (t.dropWhile p) := by
  cases hdrop : t.dropWhile p with
  | nil => exact ⟨by rwa [List.takeWhile_eq_self_iff.2 (List.dropWhile_eq_nil_iff.1 hdrop)], V.nil⟩
  | cons c rest =>
    have hc := eq_false_of_dropWhile hdrop
    rw [← List.takeWhile_append_dropWhile (p := p) (l := t), hdrop] at h
    obtain ⟨hbefore, hrest⟩ := V.separate (hp c hc) h
    exact ⟨hbefore, (writes_cons (hp c hc)).2 hrest⟩

end Class

lemma writes_trim (h : V.Writes t) : V.Writes (Text.trim t) := by
  have hblanks : ∀ u : Text, (u.takeWhile Text.isBlank).all isSeparator = true := fun u =>
    List.all_eq_true.2 fun c hc => isSeparator_of_isBlank (List.mem_takeWhile_imp hc)
  have hstart : V.Writes (t.dropWhile Text.isBlank) := by
    rw [← List.takeWhile_append_dropWhile (p := Text.isBlank) (l := t)] at h
    exact writes_of_separators_append (hblanks t) h
  have hend := (List.takeWhile_append_dropWhile (p := Text.isBlank)
    (l := (t.dropWhile Text.isBlank).reverse)).symm
  rw [← List.reverse_inj, List.reverse_append, List.reverse_reverse] at hend
  rw [hend] at hstart
  exact writes_of_append_separators (by rw [List.all_reverse, hblanks]) hstart

/-- Texts in the vocabulary with a separator between them. -/
lemma writes_join {separator : Text} (hseparator : V.Writes separator) {parts : List Text}
    (h : ∀ part ∈ parts, V.Writes part) : V.Writes (Text.join separator parts) := by
  induction parts with
  | nil => exact V.nil
  | cons part rest ih =>
    obtain ⟨hpart, hrest⟩ := List.forall_mem_cons.1 h
    cases rest with
    | nil => exact hpart
    | cons next rest => exact V.append (V.append hpart hseparator) (ih hrest)

/-- What stands around a mark. -/
lemma writes_around {mark : Text} (hne : mark ≠ []) (hmark : mark.all isSeparator = true)
    (h : V.Writes (s ++ mark ++ t)) : V.Writes s ∧ V.Writes t := by
  cases mark with
  | nil => exact absurd rfl hne
  | cons c mark =>
    obtain ⟨hc, hmark⟩ : isSeparator c = true ∧ mark.all isSeparator = true := by simpa using hmark
    rw [List.append_assoc, List.cons_append] at h
    obtain ⟨hs, -, hrest⟩ := V.separate hc h
    exact ⟨hs, writes_of_separators_append hmark hrest⟩

lemma writes_of_cut? {mark before after : Text} (hne : mark ≠ [])
    (hmark : mark.all isSeparator = true) (hcut : Text.cut? mark t = some (before, after))
    (h : V.Writes t) : V.Writes before ∧ V.Writes after :=
  writes_around hne hmark (by rwa [Text.append_of_cut? hcut])

lemma writes_of_partition {separator : Char} (hseparator : isSeparator separator = true)
    {name : Text} {default? : Option Text} (hsplit : Text.partition separator t = (name, default?))
    (h : V.Writes t) : V.Writes name ∧ ∀ default ∈ default?, V.Writes default := by
  have hp : ∀ c, (c != separator) = false → isSeparator c = true := by
    intro c hc
    obtain rfl : c = separator := by simpa using hc
    exact hseparator
  obtain ⟨hname, hrest⟩ := writes_span hp h
  unfold Text.partition at hsplit
  split at hsplit
  · obtain ⟨rfl, rfl⟩ := Prod.mk.inj hsplit
    exact ⟨hname, by simp⟩
  · rename_i d rest hdrop
    obtain ⟨rfl, rfl⟩ := Prod.mk.inj hsplit
    rw [hdrop] at hrest
    have hd := eq_false_of_dropWhile (p := (· != separator)) hdrop
    exact ⟨hname, by simpa using ((writes_cons (hp d hd)).1 hrest).2⟩

/-- Texts that are joined with a separator. -/
lemma writes_of_join {separator : Char} (hseparator : isSeparator separator = true)
    {parts : List Text} (h : V.Writes (Text.join [separator] parts)) :
    ∀ part ∈ parts, V.Writes part := by
  induction parts with
  | nil => exact List.forall_mem_nil _
  | cons part rest ih =>
    cases rest with
    | nil => exact List.forall_mem_singleton.2 h
    | cons next rest =>
      have hjoin : Text.join [separator] (part :: next :: rest) =
          part ++ separator :: Text.join [separator] (next :: rest) := by simp [Text.join]
      rw [hjoin] at h
      obtain ⟨hpart, -, hrest⟩ := V.separate hseparator h
      exact List.forall_mem_cons.2 ⟨hpart, ih hrest⟩

/-- A text less what it starts or ends with. -/
lemma writes_dropStart {mark : Text} (hmark : mark.all isSeparator = true)
    (h : V.Writes t) : V.Writes (Text.dropStart mark t) := by
  unfold Text.dropStart
  split
  · rename_i hprefix
    obtain ⟨rest, rfl⟩ := List.isPrefixOf_iff_prefix.1 hprefix
    rw [List.drop_left]
    exact writes_of_separators_append hmark h
  · exact h

lemma writes_dropEnd {mark : Text} (hmark : mark.all isSeparator = true)
    (h : V.Writes t) : V.Writes (Text.dropEnd mark t) := by
  unfold Text.dropEnd
  split
  · rename_i hsuffix
    obtain ⟨rest, rfl⟩ := List.isSuffixOf_iff_suffix.1 hsuffix
    rw [List.length_append, Nat.add_sub_cancel, List.take_left]
    exact writes_of_append_separators hmark h
  · exact h

end Vocabulary

end Stencil
