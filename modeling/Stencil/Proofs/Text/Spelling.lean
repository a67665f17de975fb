import Mathlib.Data.List.TakeWhile
import Mathlib.Tactic.Lemma
import Stencil.Text.Basic

/-!
# A character spelled as a word

`Text.spell letter word` writes a word in place of each occurrence of a character.  Searching and
cutting a text is the same before and after that, as long as it cannot tell the word from the
character: the token that is looked for has neither, or the class of characters that is skipped has
both or neither.  The lemmas of this file say so for each of the operations on texts.  The word has
to be there: one that is empty would bring together what the character keeps apart.
-/

namespace Stencil.Text

/-- A text with a word in place of each occurrence of a character. -/
def spell (letter : Char) (word : Text) (t : Text) : Text :=
  t.flatMap fun c => if c = letter then word else [c]

variable {letter : Char} {word : Text}

@[simp] lemma spell_nil : spell letter word [] = [] := rfl

lemma spell_self (t : Text) : spell letter word (letter :: t) = word ++ spell letter word t := by
  simp [spell]

lemma spell_of_ne {c : Char} (hc : c ≠ letter) (t : Text) :
    spell letter word (c :: t) = c :: spell letter word t := by
  simp [spell, hc]

lemma spell_append (s t : Text) :
    spell letter word (s ++ t) = spell letter word s ++ spell letter word t :=
  List.flatMap_append

/-- Where the character does not occur nothing changes. -/
lemma spell_of_notMem {t : Text} (ht : letter ∉ t) : spell letter word t = t := by
  induction t with
  | nil => rfl
  | cons c t ih =>
    obtain ⟨hc, ht⟩ : letter ≠ c ∧ letter ∉ t := by simpa using ht
    rw [spell_of_ne (Ne.symm hc), ih ht]

lemma mem_spell {d : Char} {t : Text} :
    d ∈ spell letter word t ↔ letter ∈ t ∧ d ∈ word ∨ d ∈ t ∧ d ≠ letter := by
  induction t with
  | nil => simp
  | cons c t ih =>
    by_cases hc : c = letter
    · subst hc
      rw [spell_self, List.mem_append, ih]
      grind
    · rw [spell_of_ne hc, List.mem_cons, ih]
      grind

/-- Spelling in two steps, by way of another character that the text does not have. -/
lemma spell_spell {other : Char} {t : Text} (ht : other ∉ t) :
    spell other word (spell letter [other] t) = spell letter word t := by
  induction t with
  | nil => rfl
  | cons c t ih =>
    obtain ⟨hc, ht⟩ : other ≠ c ∧ other ∉ t := by simpa using ht
    by_cases hl : c = letter
    · subst hl
      rw [spell_self, spell_self, List.singleton_append, spell_self, ih ht]
    · rw [spell_of_ne hl, spell_of_ne hl, spell_of_ne (Ne.symm hc), ih ht]

lemma reverse_spell (t : Text) :
    (spell letter word t).reverse = spell letter word.reverse t.reverse := by
  rw [spell, List.reverse_flatMap]
  congr 1
  funext c
  by_cases hc : c = letter <;> simp [hc]

lemma length_le_length_spell (hword : word ≠ []) (t : Text) :
    t.length ≤ (spell letter word t).length := by
  have hpos := List.length_pos_iff.2 hword
  induction t with
  | nil => simp
  | cons c t ih =>
    by_cases hc : c = letter
    · rw [hc, spell_self, List.length_append, List.length_cons]
      omega
    · rw [spell_of_ne hc, List.length_cons, List.length_cons]
      omega

/-! ## Classes of characters -/

section Classes

variable (hword : word ≠ []) {p : Char → Bool} (hp : ∀ c ∈ word, p c = p letter)

include hword hp

lemma dropWhile_spell (t : Text) :
    (spell letter word t).dropWhile p = spell letter word (t.dropWhile p) := by
  induction t with
  | nil => rfl
  | cons c t ih =>
    by_cases hc : c = letter
    · subst hc
      rw [spell_self]
      cases hpc : p c with
      | true =>
        -- All characters of the word are in the class that its letter is in, so they are dropped or
        -- kept with it.
        have hall : ∀ d ∈ word, p d = true := fun d hd => (hp d hd).trans hpc
        rw [List.dropWhile_append_of_pos hall, ih, List.dropWhile_cons_of_pos hpc]
      | false =>
        obtain ⟨d, rest, rfl⟩ := List.exists_cons_of_ne_nil hword
        have hd : ¬ p d = true := by simp [hp d List.mem_cons_self, hpc]
        rw [List.cons_append, List.dropWhile_cons_of_neg hd,
          List.dropWhile_cons_of_neg (by simp [hpc]), spell_self, List.cons_append]
    · rw [spell_of_ne hc, List.dropWhile_cons, List.dropWhile_cons]
      split
      · exact ih
      · rw [spell_of_ne hc]

lemma takeWhile_spell (t : Text) :
    (spell letter word t).takeWhile p = spell letter word (t.takeWhile p) := by
  have h := List.takeWhile_append_dropWhile (p := p) (l := spell letter word t)
  rw [dropWhile_spell hword hp] at h
  have hparts := congrArg (spell letter word) (List.takeWhile_append_dropWhile (p := p) (l := t))
  rw [spell_append] at hparts
  exact List.append_cancel_right (h.trans hparts.symm)

end Classes

lemma trim_spell (hword : word ≠ []) (hl : isBlank letter = false)
    (hw : ∀ c ∈ word, isBlank c = false) (t : Text) :
    trim (spell letter word t) = spell letter word (trim t) := by
  have hstart : ∀ c ∈ word, isBlank c = isBlank letter := fun c hc => (hw c hc).trans hl.symm
  have hend : ∀ c ∈ word.reverse, isBlank c = isBlank letter :=
    fun c hc => hstart c (List.mem_reverse.1 hc)
  rw [trim, trimWhere, dropWhile_spell hword hstart, reverse_spell,
    dropWhile_spell (by simpa using hword) hend, reverse_spell, List.reverse_reverse]
  rfl

lemma partition_spell (hword : word ≠ []) {separator : Char} (hl : letter ≠ separator)
    (hw : separator ∉ word) (t : Text) :
    partition separator (spell letter word t) =
      (spell letter word (partition separator t).1,
        (partition separator t).2.map (spell letter word)) := by
  have hp : ∀ c ∈ word, (c != separator) = (letter != separator) := by
    intro c hc
    rw [bne_iff_ne.2 hl]
    exact bne_iff_ne.2 fun h => hw (h ▸ hc)
  rw [partition, partition, dropWhile_spell hword hp, takeWhile_spell hword hp]
  cases hdrop : t.dropWhile (· != separator) with
  | nil => rfl
  | cons c rest =>
    have hc : c = separator := by
      have hhead := List.head_dropWhile_not (l := t) (· != separator) (by simp [hdrop])
      simpa [hdrop] using hhead
    rw [spell_of_ne (hc ▸ Ne.symm hl)]
    rfl

/-! ## Tokens -/

/-- A text that does not have the first character of a token is passed over. -/
lemma cut?_append {first : Char} {s : Text} (hs : first ∉ s) (token t : Text) :
    cut? (first :: token) (s ++ t) =
      (cut? (first :: token) t).map fun (before, after) => (s ++ before, after) := by
  induction s with
  | nil => simp
  | cons c s ih =>
    obtain ⟨hc, hs⟩ : first ≠ c ∧ first ∉ s := by simpa using hs
    have hprefix : (first :: token).isPrefixOf (c :: (s ++ t)) = false := by
      simp [List.isPrefixOf, hc]
    rw [List.cons_append, cut?, hprefix, ih hs]
    simp [Function.comp_def]

/-- A token without the character is still what the text starts with, and so is what follows. -/
lemma drop_spell {token : Text} (hl : letter ∉ token) {t : Text} (ht : token.isPrefixOf t = true) :
    (spell letter word t).drop token.length = spell letter word (t.drop token.length) := by
  obtain ⟨s, rfl⟩ := List.isPrefixOf_iff_prefix.1 ht
  rw [spell_append, spell_of_notMem hl, List.drop_left, List.drop_left]

section Tokens

variable (hword : word ≠ []) {token : Text} (hl : letter ∉ token) (hw : ∀ c ∈ word, c ∉ token)

include hword hl hw

lemma isPrefixOf_spell (t : Text) :
    token.isPrefixOf (spell letter word t) = token.isPrefixOf t := by
  induction token generalizing t with
  | nil => simp
  | cons d token ih =>
    obtain ⟨hd, hl⟩ : letter ≠ d ∧ letter ∉ token := by simpa using hl
    cases t with
    | nil => rfl
    | cons c t =>
      -- Where the letter stands the token fails in both texts at once, as it begins with no
      -- character of the word.
      by_cases hc : c = letter
      · obtain ⟨e, rest, rfl⟩ := List.exists_cons_of_ne_nil hword
        have he : (d == e) = false :=
          beq_eq_false_iff_ne.2 fun h => hw e List.mem_cons_self (by simp [h])
        have hletter : (d == letter) = false := beq_eq_false_iff_ne.2 (Ne.symm hd)
        simp [hc, spell_self, List.isPrefixOf, he, hletter]
      · have hw' : ∀ c ∈ word, c ∉ token := fun c hc hmem => hw c hc (List.mem_cons_of_mem d hmem)
        simp [spell_of_ne hc, List.isPrefixOf, ih hl hw']

lemma dropStart_spell (t : Text) :
    dropStart token (spell letter word t) = spell letter word (dropStart token t) := by
  rw [dropStart, dropStart, isPrefixOf_spell hword hl hw]
  split
  · rename_i ht
    exact drop_spell hl ht
  · rfl

lemma cut?_spell (htoken : token ≠ []) (t : Text) :
    cut? token (spell letter word t) = (cut? token t).map
      fun (before, after) => (spell letter word before, spell letter word after) := by
  obtain ⟨first, rest, rfl⟩ := List.exists_cons_of_ne_nil htoken
  induction t with
  | nil => rfl
  | cons c t ih =>
    by_cases hc : c = letter
    · have hfirst : first ∉ word := fun h => hw first h List.mem_cons_self
      have hne : letter ≠ first := fun h => hl (by simp [h])
      have hskip := cut?_append (s := [c]) (by simpa [hc] using Ne.symm hne) rest t
      rw [List.singleton_append] at hskip
      rw [hskip, hc, spell_self, cut?_append hfirst, ih]
      simp [Function.comp_def, spell_self]
    · have hprefix := isPrefixOf_spell hword hl hw (c :: t)
      rw [cut?]
      split
      · rename_i ht
        have hdrop : (spell letter word (c :: t)).drop (first :: rest).length = _ :=
          drop_spell hl ht
        rw [ht, spell_of_ne hc] at hprefix
        rw [spell_of_ne hc] at hdrop
        rw [spell_of_ne hc, cut?, if_pos hprefix, hdrop]
        rfl
      · rename_i ht
        rw [Bool.not_eq_true] at ht
        rw [ht, spell_of_ne hc] at hprefix
        rw [spell_of_ne hc, cut?, hprefix, ih]
        simp [Function.comp_def, spell_of_ne hc]

end Tokens

lemma dropEnd_spell (hword : word ≠ []) {token : Text} (hl : letter ∉ token)
    (hw : ∀ c ∈ word, c ∉ token) (t : Text) :
    dropEnd token (spell letter word t) = spell letter word (dropEnd token t) := by
  -- The end of a text is the start of its reverse.
  have hmirror : ∀ s : Text, dropEnd token s = (dropStart token.reverse s.reverse).reverse := by
    intro s
    rw [dropEnd, dropStart, List.isSuffixOf]
    split
    · rw [List.length_reverse, List.reverse_drop]
      simp
    · rw [List.reverse_reverse]
  rw [hmirror, hmirror, reverse_spell,
    dropStart_spell (by simpa using hword) (by simpa using hl) (by simpa using hw), reverse_spell,
    List.reverse_reverse]

end Stencil.Text
