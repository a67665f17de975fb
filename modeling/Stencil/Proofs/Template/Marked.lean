import Stencil.Proofs.Template.Escaping
import Stencil.Proofs.Template.Vocabulary
import Stencil.Proofs.Text.Alphanumeric
import Stencil.Proofs.Text.Spelling
import Stencil.Proofs.Value.Strings

/-!
# Merging around escape marks

While a template is resolved, an escaped `$` is a pair of characters, the `$` and the escape mark
before it.  This file compares a text with such pairs to the same text with a letter in the place of
each (`StandIn`).  Merging parameters cuts a text at many places; it never cuts a pair, it finds the
same expressions in either text, with the same parameters, and it puts the same texts together
(`expression?_marked`, `firstBound?_marked`, `mergeAll_marked`).

The letter must not be told apart from the pair.  So it is alphanumeric, which neither ends a name
nor is trimmed, and it occurs in no parameter (`StandIn.Fresh`); nor does the `$`.  What is merged
is then either a value of the parameters, in which there is nothing to replace, or a default, which
is a part of the text itself (`StandIn.Clean`).
-/

namespace Stencil.Template

/-! ## Texts without start marks -/

/-- A text without `$` and escape marks. -/
structure Bare (t : Text) : Prop where
  start : '$' ∉ t
  mark : escapeMark ∉ t

lemma Bare.mono {s t : Text} (ht : Bare t) (h : s ⊆ t) : Bare s :=
  ⟨fun hs => ht.start (h hs), fun hs => ht.mark (h hs)⟩

@[simp] lemma bare_append {s t : Text} : Bare (s ++ t) ↔ Bare s ∧ Bare t := by
  constructor
  · intro h
    exact ⟨h.mono (List.subset_append_left s t), h.mono (List.subset_append_right s t)⟩
  · rintro ⟨hs, ht⟩
    exact ⟨by simp [hs.start, ht.start], by simp [hs.mark, ht.mark]⟩

@[simp] lemma bare_cons {c : Char} {t : Text} :
    Bare (c :: t) ↔ (c ≠ '$' ∧ c ≠ escapeMark) ∧ Bare t := by
  constructor
  · intro h
    have hstart := h.start
    have hmark := h.mark
    simp only [List.mem_cons, not_or] at hstart hmark
    exact ⟨⟨Ne.symm hstart.1, Ne.symm hmark.1⟩, ⟨hstart.2, hmark.2⟩⟩
  · rintro ⟨⟨hstart, hmark⟩, ht⟩
    exact ⟨by simp [Ne.symm hstart, ht.start], by simp [Ne.symm hmark, ht.mark]⟩

/-- The texts without `$` and escape marks. -/
def bareVocabulary : Vocabulary := .ofLetters fun c => c ≠ '$' ∧ c ≠ escapeMark

lemma bare_iff {t : Text} : Bare t ↔ bareVocabulary.Writes t := by
  constructor
  · exact fun h c hc => ⟨ne_of_mem_of_not_mem hc h.start, ne_of_mem_of_not_mem hc h.mark⟩
  · exact fun h => ⟨fun hc => (h _ hc).1 rfl, fun hc => (h _ hc).2 rfl⟩

lemma Bare.trim {t : Text} (ht : Bare t) : Bare (Text.trim t) :=
  bare_iff.2 (Vocabulary.writes_trim (bare_iff.1 ht))

lemma Bare.default {t text : Text} (ht : Bare t) (h : (Text.partition ',' t).2 = some text) :
    Bare text := by
  have hcomma : isSeparator ',' = true := by decide
  exact bare_iff.2 ((Vocabulary.writes_of_partition hcomma rfl (bare_iff.1 ht)).2 text h)

lemma Bare.bareText {v : Value} (hv : Bare v.text) : Bare (bareText v) :=
  bare_iff.2 (writes_bareText (bare_iff.1 hv))

lemma bare_nil : Bare [] := ⟨by simp, by simp⟩

/-! ## Stand-ins -/

/-- A letter that stands for an escaped `$`. -/
structure StandIn where
  letter : Char
  alphanumeric : Text.isAlphanumeric letter = true

namespace StandIn

variable (s : StandIn)

/-- The text with an escape mark and a `$` in place of the letter. -/
def marked (t : Text) : Text := Text.spell s.letter [escapeMark, '$'] t

/-- The text with a `$` in place of the letter. -/
def starts (t : Text) : Text := Text.spell s.letter ['$'] t

lemma ne {d : Char} (hd : Text.isAlphanumeric d = false) : s.letter ≠ d :=
  Text.ne_of_isAlphanumeric s.alphanumeric hd

lemma notMem {t : Text} (ht : t.all (!Text.isAlphanumeric ·) = true) : s.letter ∉ t := by
  intro h
  have hletter := List.all_eq_true.1 ht s.letter h
  rw [s.alphanumeric] at hletter
  cases hletter

lemma isPrintable_letter : Text.isPrintable s.letter = true :=
  Text.isPrintable_of_isAlphanumeric s.alphanumeric

@[simp] lemma marked_nil : s.marked [] = [] := rfl

lemma marked_append (t u : Text) : s.marked (t ++ u) = s.marked t ++ s.marked u :=
  Text.spell_append t u

lemma marked_cons {c : Char} (hc : c ≠ s.letter) (t : Text) :
    s.marked (c :: t) = c :: s.marked t := Text.spell_of_ne hc t

lemma marked_of_notMem {t : Text} (ht : s.letter ∉ t) : s.marked t = t := Text.spell_of_notMem ht

lemma isEmpty_marked (t : Text) : (s.marked t).isEmpty = t.isEmpty := by
  cases t with
  | nil => rfl
  | cons c t =>
    by_cases hc : c = s.letter
    · rw [marked, hc, Text.spell_self]
      rfl
    · rw [s.marked_cons hc]
      rfl

/-- Putting a character before each `$` that replaces the letter is replacing the letter by both. -/
lemma putBeforeStarts_starts (mark : Char) {t : Text} (ht : Bare t) :
    putBeforeStarts mark (s.starts t) = Text.spell s.letter [mark, '$'] t := by
  rw [putBeforeStarts_eq_spell, starts, Text.spell_spell ht.start]

lemma mark_notMem_starts {t : Text} (ht : Bare t) : escapeMark ∉ s.starts t := by
  rw [starts, Text.mem_spell]
  rintro (⟨-, h⟩ | ⟨h, -⟩)
  · exact absurd h (by decide)
  · exact ht.mark h

/-- Taking the escape marks out of a marked text leaves a `$` in place of each letter. -/
lemma restoreText_marked {t : Text} (ht : Bare t) : restoreText (s.marked t) = s.starts t := by
  rw [marked, ← s.putBeforeStarts_starts escapeMark ht,
    restoreText_putBeforeStarts (s.mark_notMem_starts ht)]

/-! ## Operations on marked texts -/

/-- What holds of the escape mark and of `$` holds of all that replaces the letter. -/
lemma forall_mem_marks {p : Char → Prop} (hm : p escapeMark) (hd : p '$') :
    ∀ c ∈ [escapeMark, '$'], p c := by
  simp [hm, hd]

lemma trim_marked (t : Text) : Text.trim (s.marked t) = s.marked (Text.trim t) :=
  Text.trim_spell (List.cons_ne_nil _ _) (Text.isBlank_of_isAlphanumeric s.alphanumeric)
    (forall_mem_marks (by decide) (by decide)) t

lemma partition_marked (t : Text) :
    Text.partition ',' (s.marked t) =
      (s.marked (Text.partition ',' t).1, (Text.partition ',' t).2.map s.marked) :=
  Text.partition_spell (List.cons_ne_nil _ _) (s.ne (by decide)) (by decide) t

lemma cut?_marked {token : Text} (htoken : token ≠ [])
    (hl : token.all (!Text.isAlphanumeric ·) = true) (hm : escapeMark ∉ token) (hd : '$' ∉ token)
    (t : Text) :
    Text.cut? token (s.marked t) =
      (Text.cut? token t).map fun (before, after) => (s.marked before, s.marked after) :=
  Text.cut?_spell (List.cons_ne_nil _ _) (s.notMem hl) (forall_mem_marks hm hd) htoken t

lemma bareText_marked {v w : Value} (h : w.text = s.marked v.text) :
    bareText w = s.marked (bareText v) := by
  rw [bareText, bareText, h, marked,
    Text.dropStart_spell (List.cons_ne_nil _ _) (s.notMem (by decide))
      (forall_mem_marks (by decide) (by decide)),
    Text.dropEnd_spell (List.cons_ne_nil _ _) (s.notMem (by decide))
      (forall_mem_marks (by decide) (by decide))]
  rfl

lemma endsName_letter : endsName s.letter = false := by
  have hnone : s.letter ∉ nameEnds := s.notMem (by decide)
  simpa [endsName] using hnone

/-- The marks of an expression stay where they are. -/
lemma marked_opening (t : Text) : s.marked ('#' :: '{' :: t) = '#' :: '{' :: s.marked t := by
  rw [s.marked_cons (Ne.symm (s.ne (by decide))), s.marked_cons (Ne.symm (s.ne (by decide)))]

lemma marked_closing : s.marked ['}'] = ['}'] := s.marked_of_notMem (s.notMem (by decide))

lemma ne_of_endsName {c : Char} (hc : endsName c = true) : c ≠ s.letter := by
  rintro rfl
  rw [s.endsName_letter] at hc
  cases hc

lemma splitName_marked (inner : Text) :
    splitName (s.marked inner) = (splitName inner).map
      fun (name, ending, after) => (s.marked name, ending, s.marked after) := by
  -- No name ends at a mark, at the `$` or at the letter, so that names end in the same places.
  have hp : ∀ c ∈ [escapeMark, '$'], (!endsName c) = (!endsName s.letter) := by
    rw [s.endsName_letter]
    exact forall_mem_marks (by decide) (by decide)
  rw [splitName, splitName, marked, Text.dropWhile_spell (List.cons_ne_nil _ _) hp,
    Text.takeWhile_spell (List.cons_ne_nil _ _) hp]
  cases hdrop : inner.dropWhile (!endsName ·) with
  | nil => rfl
  | cons ending after =>
    rw [Text.spell_of_ne (s.ne_of_endsName (endsName_of_dropWhile hdrop))]
    rfl

end StandIn

/-! ## Expressions -/

namespace StandIn

variable (s : StandIn)

/-- Marks change nothing about where the expressions are. -/
lemma expression?_marked (t : Text) :
    expression? (s.marked t) = (expression? t).map fun (before, name, ending, after) =>
      (s.marked before, s.marked name, ending, s.marked after) := by
  rw [expression?, expression?, cutOpening?, cutOpening?,
    s.cut?_marked (List.cons_ne_nil _ _) (by decide) (by decide) (by decide)]
  cases Text.cut? ['#', '{'] t with
  | none => rfl
  | some cut =>
    obtain ⟨before, inner⟩ := cut
    have hsplit := s.splitName_marked inner
    have hlength : inner.length ≤ (s.marked inner).length :=
      Text.length_le_length_spell (List.cons_ne_nil _ _) inner
    simp only [Option.map_some]
    by_cases hroom : 2 ≤ inner.length
    · rw [if_pos hroom, if_pos (by omega), Option.bind_some, Option.bind_some, hsplit]
      simp [Function.comp_def]
    · -- The mark and its `$` make room for a name and an end, but they are none.
      rw [if_neg hroom, Option.bind_none, Option.map_none]
      split
      · rename_i hlong
        have hinner : inner = [s.letter] := by
          rcases inner with _ | ⟨c, _ | ⟨d, rest⟩⟩
          · simp at hlong
          · by_contra hc
            rw [s.marked_cons (by simpa using hc)] at hlong
            simp at hlong
          · simp at hroom
        rw [Option.bind_some, hsplit, hinner]
        simp [splitName, s.endsName_letter]
      · rfl

/-! ## Parameters -/

/-- The letter occurs in no name and no value of the parameters, nor does the `$`, and the values
are without escape marks. -/
structure Fresh (params : Entries) : Prop where
  names : ∀ name v, (Value.str name, v) ∈ params → '$' ∉ name ∧ s.letter ∉ name
  values : ∀ key v, (key, v) ∈ params → ('$' ∉ v.text ∧ s.letter ∉ v.text) ∧ Unmarked v

/-- What may be merged: a text without `$` and escape marks, or a value without these and without
the letter. -/
inductive Clean : Value → Prop where
  | str {t : Text} (ht : Bare t) : Clean (.str t)
  | other {v : Value} (hstart : '$' ∉ v.text) (hletter : s.letter ∉ v.text) (hv : Unmarked v) :
      Clean v

variable {s}

/-- Replacing the letter changes no value that does not have it. -/
lemma mapStrings_of_strings {v : Value} (hv : ∀ t ∈ v.strings, s.letter ∉ t) (word : Text) :
    v.mapStrings (Text.spell s.letter word) = v :=
  v.mapStrings_eq_self fun t ht => Text.spell_of_notMem (hv t ht)

lemma mapStrings_of_notMem {v : Value} (hv : s.letter ∉ v.text) (word : Text) :
    v.mapStrings (Text.spell s.letter word) = v := by
  apply mapStrings_of_strings
  intro t ht h
  exact hv (Value.mem_text_of_mem_strings s.isPrintable_letter ht h)

lemma Clean.bare {v : Value} (hv : s.Clean v) : Bare v.text := by
  cases hv with
  | str ht => exact ht
  | other hstart _ hv => exact ⟨hstart, hv.notMem_text⟩

lemma Clean.text_mapStrings {v : Value} (hv : s.Clean v) :
    (v.mapStrings s.marked).text = s.marked v.text := by
  cases hv with
  | str => rfl
  | other _ hletter =>
    rw [s.marked_of_notMem hletter]
    exact congrArg Value.text (mapStrings_of_notMem hletter [escapeMark, '$'])

/-- A name that the text's marks are in is no parameter's, as it is not with the letter. -/
lemma Fresh.get_marked {params : Entries} (hp : s.Fresh params) (name : Text) :
    Entries.get params (s.marked name) = Entries.get params name := by
  have hnone : ∀ {d : Char} {name : Text}, d ∈ name →
      (∀ key v, (Value.str key, v) ∈ params → d ∉ key) → Entries.get params name = .none := by
    intro d name hd hkeys
    have hfind : List.find? (fun entry => entry.1.isNamed name) params = none := by
      rw [List.find?_eq_none]
      rintro ⟨key, v⟩ hmem hnamed
      cases key with
      | str key =>
        obtain rfl : key = name := by simpa [Value.isNamed] using hnamed
        exact hkeys key v hmem hd
      | _ => cases hnamed
    rw [Entries.get, Entries.find?, hfind]
    rfl
  by_cases hname : s.letter ∈ name
  · have hstart : '$' ∈ s.marked name := Text.mem_spell.2 (.inl ⟨hname, by simp⟩)
    rw [hnone hstart fun key v h => (hp.names key v h).1,
      hnone hname fun key v h => (hp.names key v h).2]
  · rw [s.marked_of_notMem hname]

lemma Fresh.get {params : Entries} (hp : s.Fresh params) (name : Text) :
    ('$' ∉ (Entries.get params name).text ∧ s.letter ∉ (Entries.get params name).text) ∧
      Unmarked (Entries.get params name) := by
  rw [Entries.get, Entries.find?]
  cases hfind : List.find? (fun entry => entry.1.isNamed name) params with
  | none => exact ⟨⟨by simp, by simp⟩, trivial⟩
  | some entry => exact hp.values entry.1 entry.2 (List.mem_of_find?_eq_some hfind)

/-- Where a name is expected, marks only show in a default. -/
lemma Fresh.lookUpParam_marked {params : Entries} (hp : s.Fresh params) (t : Text) :
    lookUpParam params (s.marked t) = (lookUpParam params t).mapStrings s.marked := by
  obtain ⟨⟨-, hletter⟩, -⟩ := hp.get (Text.trim (Text.partition ',' t).1)
  have hvalue := mapStrings_of_notMem hletter [escapeMark, '$']
  rw [lookUpParam, lookUpParam, s.partition_marked]
  simp only [s.trim_marked, hp.get_marked]
  generalize Entries.get params (Text.trim (Text.partition ',' t).1) = v at hvalue ⊢
  -- The default comes in only where there is no parameter, and it is the one part that can be
  -- marked.
  cases hdefault : (Text.partition ',' t).2 with
  | none => cases v <;> exact hvalue.symm
  | some text =>
    cases v with
    | none => simp only [Option.map_some, s.trim_marked, Value.mapStrings]
    | _ => exact hvalue.symm

lemma Fresh.clean_lookUpParam {params : Entries} (hp : s.Fresh params) {t : Text} (ht : Bare t) :
    s.Clean (lookUpParam params t) := by
  obtain ⟨⟨hstart, hletter⟩, hunmarked⟩ := hp.get (Text.trim (Text.partition ',' t).1)
  have hvalue := Clean.other hstart hletter hunmarked
  simp only [lookUpParam]
  generalize Entries.get params (Text.trim (Text.partition ',' t).1) = v at hvalue ⊢
  cases hdefault : (Text.partition ',' t).2 with
  | none => cases v <;> exact hvalue
  | some text =>
    cases v with
    | none => exact .str (ht.default hdefault).trim
    | _ => exact hvalue

/-! ## Merging -/

variable (s) in
/-- An expression with marks in place of the letter. -/
def markedBound (b : Bound) : Bound where
  before := s.marked b.before
  value := b.value.mapStrings s.marked
  ending := b.ending
  after := s.marked b.after

section Merging

variable {params : Entries} (hp : s.Fresh params)

include hp

/-- The first bound expression of a marked text is the one of the text itself, marked. -/
lemma Fresh.firstBound?_marked (t : Text) :
    firstBound? params (s.marked t) = (firstBound? params t).map s.markedBound := by
  induction hn : t.length using Nat.strong_induction_on generalizing t with
  | _ n ih =>
    rw [firstBound?_eq_bind, firstBound?_eq_bind params t, s.expression?_marked]
    cases hx : expression? t with
    | none => rfl
    | some x =>
      obtain ⟨before, name, ending, after⟩ := x
      obtain ⟨rfl, hends⟩ := expression?_eq_some hx
      have hafter : after.length < n := by
        rw [← hn]
        simp
        omega
      have hsome : ∀ v : Value, (v.mapStrings s.marked).isSome = v.isSome := by
        intro v
        cases v <;> rfl
      simp only [Option.map_some, Option.bind_some, s.trim_marked, hp.lookUpParam_marked, hsome]
      split
      · rfl
      · rw [ih _ hafter after rfl, Option.map_map, Option.map_map]
        congr 1
        funext b
        simp [markedBound, s.marked_append, s.marked_opening,
          s.marked_cons (s.ne_of_endsName hends)]

lemma Fresh.firstBound?_marked_some {t : Text} {b : Bound} (h : firstBound? params t = some b) :
    firstBound? params (s.marked t) = some (s.markedBound b) := by
  rw [hp.firstBound?_marked, h]
  rfl

/-- What is found in a text without `$` and escape marks has none either. -/
lemma Fresh.clean_of_firstBound? {t : Text} (ht : Bare t) {b : Bound}
    (h : firstBound? params t = some b) :
    Bare b.before ∧ s.Clean b.value ∧ endsName b.ending = true ∧ Bare b.after := by
  obtain ⟨name, rfl, hends, hvalue⟩ := firstBound?_eq_some params h
  simp only [bare_append, bare_cons] at ht
  obtain ⟨hbefore, -, -, hname, -, hafter⟩ := ht
  exact ⟨hbefore, hvalue ▸ hp.clean_lookUpParam hname.trim, hends, hafter⟩

/-- Merging into a marked text is merging into the text itself, and the marks are kept. -/
lemma Fresh.mergeAll_marked {t : Text} (ht : Bare t) (done : Text) :
    mergeAll params (s.marked done) (s.marked t) =
      { stages := (mergeAll params done t).stages.map s.marked
        text? := (mergeAll params done t).text?.map s.marked } := by
  have hcut := s.cut?_marked (List.cons_ne_nil '}' []) (by decide) (by decide) (by decide)
  -- By recursion along the merging of the text itself; the values have no marks, so that they are
  -- put in alike.
  fun_induction mergeAll params done t with
  | case1 done t hnone =>
    have hnone' : firstBound? params (s.marked t) = none := by
      rw [hp.firstBound?_marked, hnone]
      rfl
    rw [mergeAll_of_none hnone']
    simp [s.marked_append]
  | case2 done t b hsome hending ih =>
    obtain ⟨-, hvalue, -, hafter⟩ := hp.clean_of_firstBound? ht hsome
    rw [mergeAll_of_closing (hp.firstBound?_marked_some hsome) hending, ← ih hafter]
    simp [markedBound, s.marked_append, hvalue.text_mapStrings]
  | case3 done t b hsome hending hopen =>
    have hopen' : Text.cut? ['}'] (s.markedBound b).after = none := by
      rw [markedBound, hcut, hopen]
      rfl
    rw [mergeAll_of_ending (hp.firstBound?_marked_some hsome) hending, hopen']
    rfl
  | case4 done t b hsome hending middle after hclosed done' rest ih =>
    obtain ⟨-, hvalue, hends, hafter⟩ := hp.clean_of_firstBound? ht hsome
    rw [← Text.append_of_cut? hclosed] at hafter
    have hclosed' : Text.cut? ['}'] (s.markedBound b).after =
        some (s.marked middle, s.marked after) := by
      rw [markedBound, hcut, hclosed]
      rfl
    have hdone : s.marked done' = s.marked done ++ s.marked b.before ++
        '#' :: '{' :: bareText (b.value.mapStrings s.marked) ++
          b.ending :: s.marked middle ++ ['}'] := by
      simp [done', s.marked_append, s.marked_opening, s.marked_closing,
        s.marked_cons (s.ne_of_endsName hends), s.bareText_marked hvalue.text_mapStrings]
    rw [mergeAll_of_ending (hp.firstBound?_marked_some hsome) hending, hclosed']
    simp only [markedBound, ← hdone, ih (bare_append.1 hafter).2]
    rfl

/-- Merging brings in no `$` and no escape mark. -/
lemma Fresh.bare_of_mergeAll {done t u : Text} (hdone : Bare done) (ht : Bare t)
    (h : (mergeAll params done t).text? = some u) : Bare u := by
  rw [bare_iff] at hdone ht ⊢
  refine writes_of_mergeAll (fun token htoken => ?_) h hdone ht
  exact bare_iff.1 (hp.clean_lookUpParam (bare_iff.2 htoken)).bare

end Merging

end StandIn

end Stencil.Template
