import Stencil.Proofs.Condition.Reading
import Stencil.Proofs.Template.Expansion
import Stencil.Proofs.Value.Strings

/-!
# Operands with tokens

An operand of a condition is a word, in which tokens of scopes may stand.  `Word` is such an operand
piece by piece, and `Word.form` is what comes of it when the values of its tokens are put in their
places.  This file says what texts operands have, by whichever way they come to them.

* The scan of a template goes over a word as over its form, whatever stands before it and behind it
  (`Word.run_sweep`).
* A word that is resolved on its own comes to a value with the form for its text
  (`run_resolve_word`), even where a single token gives a value of another kind than a text.
* So a word reads as its form (`reads_word`), and a text without tokens as the keyword that it is
  or as itself (`reads_bare`).

Escape marks within a value are taken out at the end of its resolution.  A list that is shown with
such marks in its members has a backslash for each, so where a form is without backslashes there is
no difference between taking the marks out of a value and out of its text (`text_restore`).
-/

namespace Stencil.Template

open Stencil.Condition

/-! ## Values without backslashes -/

mutual

lemma unmarked_of_strings : (v : Value) → (∀ t ∈ v.strings, escapeMark ∉ t) → Unmarked v
  | .str t, h => h t (List.mem_singleton.2 rfl)
  | .list items, h => allUnmarked_of_strings items h
  | .tuple items, h => allUnmarked_of_strings items h
  | .none, _ => trivial
  | .bool _, _ => trivial
  | .int _, _ => trivial
  | .float _, _ => trivial
  | .dict _, _ => trivial
  | .set _, _ => trivial

lemma allUnmarked_of_strings :
    (items : List Value) → (∀ t ∈ Value.allStrings items, escapeMark ∉ t) → AllUnmarked items
  | [], _ => trivial
  | v :: vs, h => by
    obtain ⟨hv, hvs⟩ := List.forall_mem_append.1 h
    exact ⟨unmarked_of_strings v hv, allUnmarked_of_strings vs hvs⟩

end

/-- Escape marks within a collection are shown by a backslash; where there is none, taking out the
marks of a value is taking out those of its text. -/
lemma text_restore {v : Value} (hv : '\\' ∉ v.text) : (restore v).text = restoreText v.text := by
  by_cases hstr : ∃ t, v = .str t
  · obtain ⟨t, rfl⟩ := hstr
    rfl
  · have hunmarked : Unmarked v := unmarked_of_strings v fun t ht hmark =>
      hv (Value.mem_text_of_mem_quoted (fun s hs => hstr ⟨s, hs⟩) ht
        (Text.backslash_mem_quoted (by decide +kernel) hmark))
    rw [restore_of_unmarked v hunmarked, restoreText_of_notMem hunmarked.notMem_text]

/-! ## Words -/

/-- Whether a character is one of an operand and of nothing else: no whitespace, no operator, and no
mark or escape of a token. -/
def isBare (ch : Char) : Bool :=
  !Text.isBlank ch && (Symbol.operator? ch).isNone && !(['{', '}', '$', '\\'].contains ch)

/-- Whether a character is one of a written operand, outside the marks of its tokens. -/
def isPlain (ch : Char) : Bool := isBare ch && ch != escapeMark

/-- A piece of an operand. -/
inductive Piece where
  | plain (t : Text)
  /-- The value of a key in a scope, which is the one of the type keyword. -/
  | token (keyword : Text) (scope : Scope) (key : Text)

namespace Piece

/-- A piece as it is written. -/
def text : Piece → Text
  | .plain t => t
  | .token keyword _ key => '$' :: (keyword ++ '{' :: (key ++ ['}']))

/-- What a piece stands for. -/
def form (c : Context) : Piece → Text
  | .plain t => t
  | .token _ scope key => (c.lookUp scope key).text

/-- Whether a piece is a token. -/
def isToken : Piece → Bool
  | .plain _ => false
  | .token _ _ _ => true

/-- A piece of plain characters, apart from the marks of a token, which is one of a scope. -/
def Fits : Piece → Prop
  | .plain t => t.all isPlain = true
  | .token keyword scope key =>
    builtinSources.find? keyword = some (scopeSource scope) ∧ key.all isPlain = true

end Piece

/-- An operand, piece by piece. -/
abbrev Word := List Piece

/-- A text that can be put in place of an operand: a bare word, which is in lower case if it is a
keyword, and is no function's name. -/
structure IsForm (t : Text) : Prop where
  nonempty : t ≠ []
  bare : t.all isBare = true
  keyword : ∀ b, keyword? t = some b → t = Value.boolText b
  function : builtinFunctions.find? t = none

namespace Word

/-- A word as it is written. -/
def text (w : Word) : Text := w.flatMap Piece.text

/-- A word with the texts of the values in the places of its tokens. -/
def form (c : Context) (w : Word) : Text := w.flatMap (Piece.form c)

/-- Whether there is a token in a word. -/
def hasToken (w : Word) : Bool := w.any Piece.isToken

/-- A word of fitting pieces, whose form can be put in its place if there is a token in it. -/
structure Fits (c : Context) (w : Word) : Prop where
  pieces : ∀ p ∈ w, p.Fits
  form : w.hasToken = true → IsForm (w.form c)

end Word

lemma isBlank_of_isBare {ch : Char} (h : isBare ch = true) : Text.isBlank ch = false := by
  simp only [isBare, Bool.and_eq_true, Bool.not_eq_true'] at h
  exact h.1.1

lemma operator?_of_isBare {ch : Char} (h : isBare ch = true) : Symbol.operator? ch = none := by
  simp only [isBare, Bool.and_eq_true, Option.isNone_iff_eq_none] at h
  exact h.1.2

lemma ne_of_isBare {ch d : Char} (h : isBare ch = true) (hd : isBare d = false) : ch ≠ d := by
  rintro rfl
  rw [h] at hd
  cases hd

lemma notMem_of_all_isBare {t : Text} (ht : t.all isBare = true) {d : Char}
    (hd : isBare d = false) : d ∉ t := by
  intro h
  exact ne_of_isBare (List.all_eq_true.1 ht d h) hd rfl

lemma isBare_of_isPlain {ch : Char} (h : isPlain ch = true) : isBare ch = true :=
  (Bool.and_eq_true_iff.1 h).1

lemma all_isBare_of_all_isPlain {t : Text} (ht : t.all isPlain = true) : t.all isBare = true := by
  rw [List.all_eq_true] at ht ⊢
  exact fun ch h => isBare_of_isPlain (ht ch h)

/-- The type keywords are plain. -/
lemma all_isPlain_of_keyword {keyword : Text} {s : Source}
    (h : builtinSources.find? keyword = some s) : keyword.all isPlain = true := by
  have hall : ∀ row ∈ builtinSources, row.1.all isPlain = true := by
    simp only [builtinSources, List.map_cons, List.map_nil, List.forall_mem_cons]
    refine ⟨?_, ?_, ?_, ?_, ?_, ?_, ?_, ?_, ?_, ?_, ?_, ?_, ?_, by simp⟩ <;> decide
  exact hall _ (Table.mem_of_find? h)

/-- The characters of a fitting piece. -/
lemma Piece.Fits.forall_mem_text {P : Char → Prop} (hplain : ∀ ch, isPlain ch = true → P ch)
    (hmarks : P '$' ∧ P '{' ∧ P '}') {p : Piece} (hp : p.Fits) : ∀ ch ∈ p.text, P ch := by
  intro ch hch
  have hall : ∀ {t : Text}, t.all isPlain = true → ch ∈ t → P ch :=
    fun ht h => hplain ch (List.all_eq_true.1 ht ch h)
  cases p with
  | plain t => exact hall hp hch
  | token keyword scope key =>
    simp only [Piece.text, List.mem_cons, List.mem_append, List.not_mem_nil, or_false] at hch
    rcases hch with rfl | h | rfl | h | rfl
    · exact hmarks.1
    · exact hall (all_isPlain_of_keyword hp.1) h
    · exact hmarks.2.1
    · exact hall hp.2 h
    · exact hmarks.2.2

lemma Piece.Fits.isEscape_of_mem_text {p : Piece} (hp : p.Fits) :
    ∀ ch ∈ p.text, isEscape ch = false := by
  refine hp.forall_mem_text (fun ch hch => ?_) (by decide)
  have hslash : ch ≠ '\\' := ne_of_isBare (isBare_of_isPlain hch) (by decide)
  have hmark : ch ≠ escapeMark := bne_iff_ne.1 (Bool.and_eq_true_iff.1 hch).2
  simp [isEscape, hslash, hmark]

/-! ## The scan of a word -/

namespace Word

variable {c : Context} {w : Word}

lemma forall_mem_text {P : Char → Prop} (hplain : ∀ ch, isPlain ch = true → P ch)
    (hmarks : P '$' ∧ P '{' ∧ P '}') (hw : ∀ p ∈ w, p.Fits) : ∀ ch ∈ w.text, P ch := by
  intro ch hch
  obtain ⟨p, hp, hch⟩ := List.mem_flatMap.1 hch
  exact (hw p hp).forall_mem_text hplain hmarks ch hch

/-- Where there is no token, a word stands for itself. -/
lemma form_eq_text (hw : w.hasToken = false) : w.form c = w.text := by
  induction w with
  | nil => rfl
  | cons p w ih =>
    obtain ⟨hp, hw⟩ : p.isToken = false ∧ Word.hasToken w = false := by
      simpa [hasToken] using hw
    have hfirst : p.form c = p.text := by
      cases p with
      | plain t => rfl
      | token keyword scope key => cases hp
    exact congrArg₂ (· ++ ·) hfirst (ih hw)

lemma all_isBare_text (hw : ∀ p ∈ w, p.Fits) (htoken : w.hasToken = false) :
    w.text.all isBare = true := by
  rw [List.all_eq_true]
  intro ch hch
  obtain ⟨p, hp, hch⟩ := List.mem_flatMap.1 hch
  have hplain := List.any_eq_false.1 htoken p hp
  cases p with
  | plain t => exact isBare_of_isPlain (List.all_eq_true.1 (hw _ hp) ch hch)
  | token keyword scope key => exact absurd rfl hplain

lemma Fits.all_isBare_form (hw : w.Fits c) : (w.form c).all isBare = true := by
  cases htoken : w.hasToken with
  | true => exact (hw.form htoken).bare
  | false =>
    rw [form_eq_text htoken]
    exact all_isBare_text hw.pieces htoken

@[simp] lemma text_cons (p : Piece) (w : Word) : text (p :: w) = p.text ++ w.text := rfl

@[simp] lemma form_cons (p : Piece) (w : Word) : form c (p :: w) = p.form c ++ w.form c := rfl

end Word

section Scan

variable {c : Context} (hs : c.sources = builtinSources) (level : Nat) {left : Text}
  (hleft : ∀ d ∈ left.head?, isEscape d = false) (right : Text) {β : Type}
  {k : Value → Resolution β}

include hs hleft

/-- The scan goes over a piece as over what it stands for.  The continuation `k` is there because a
token that is the whole template gives the value itself. -/
lemma Piece.run_sweep {p : Piece} (hp : p.Fits)
    (hblind : left = [] → ∀ v : Value, v.text ⊆ p.form c →
      (k v).run c = (k (.str v.text)).run c) :
    (sweep (answer level) {} (p.text.reverse ++ left) right >>= k).run c =
      (sweep (answer level) {} left (p.form c ++ right) >>= k).run c := by
  cases p with
  | plain t =>
    have hstart : '$' ∉ t := notMem_of_all_isBare (all_isBare_of_all_isPlain hp) (by decide)
    exact congrArg (fun x => (x >>= k).run c)
      (sweep_literal (answer level) Marks.standard hstart left right)
  | token keyword scope key =>
    have hkeyword := all_isBare_of_all_isPlain (all_isPlain_of_keyword hp.1)
    have hkey := all_isBare_of_all_isPlain hp.2
    have hfind : c.sources.find? keyword = some (scopeSource scope) := by rw [hs, hp.1]
    have hopening : '{' ∉ keyword := notMem_of_all_isBare hkeyword (by decide)
    have hbalanced : Balanced '{' '}' key := balanced_of_notMem
      (notMem_of_all_isBare hkey (by decide)) (notMem_of_all_isBare hkey (by decide))
    have hstart : '$' ∉ keyword ++ '{' :: (key ++ ['}']) := by
      simp only [List.mem_append, List.mem_cons, List.not_mem_nil, or_false, not_or]
      exact ⟨notMem_of_all_isBare hkeyword (by decide), by decide,
        notMem_of_all_isBare hkey (by decide), by decide⟩
    have hvalue := run_scopeSource_answer scope key level c
    calc (sweep (answer level) {} ((token keyword scope key).text.reverse ++ left) right
            >>= k).run c
        = (substitute (answer level) {} left
            ('$' :: (keyword ++ '{' :: (key ++ '}' :: right))) >>= k).run c := by
          have hskip := sweep_literal (answer level) Marks.standard hstart ('$' :: left) right
          rw [Marks.delimiters_standard] at hskip
          simpa [Piece.text, sweep] using congrArg (fun x => (x >>= k).run c) hskip
      _ = ((scopeSource scope key).run (answer level) >>= fun v =>
            sweep (answer level) {} left (v.text ++ right) >>= k).run c := by
          refine substitute_token (answer level) Marks.standard hleft hfind hopening hbalanced ?_
          intro hl _ v c' hv
          rw [hvalue] at hv
          cases hv
          exact hblind hl _ (List.Subset.refl _)
      _ = (sweep (answer level) {} left
            ((token keyword scope key).form c ++ right) >>= k).run c := by
          rw [run_bind_of_ok hvalue]
          rfl

lemma Word.run_sweep {w : Word} (hw : ∀ p ∈ w, p.Fits)
    (hblind : left = [] → ∀ v : Value, v.text ⊆ w.form c →
      (k v).run c = (k (.str v.text)).run c) :
    (sweep (answer level) {} (w.text.reverse ++ left) right >>= k).run c =
      (sweep (answer level) {} left (w.form c ++ right) >>= k).run c := by
  induction w generalizing left with
  | nil => rfl
  | cons p w ih =>
    obtain ⟨hp, hw⟩ := List.forall_mem_cons.1 hw
    rw [Word.form_cons] at hblind
    -- No piece ends in what escapes, so that each token is one where it stands.
    have hbefore : ∀ d ∈ (p.text.reverse ++ left).head?, isEscape d = false := by
      intro d hd
      rw [List.head?_append] at hd
      cases hlast : p.text.reverse.head? with
      | none => exact hleft d (by simpa [hlast] using hd)
      | some e =>
        obtain rfl : e = d := by simpa [hlast] using hd
        have hmem : e ∈ p.text := List.mem_reverse.1 (List.mem_of_mem_head? hlast)
        exact hp.isEscape_of_mem_text e hmem
    rw [Word.text_cons, List.reverse_append, List.append_assoc,
      ih hbefore hw fun h v hv =>
        hblind (List.append_eq_nil_iff.1 h).2 v fun d hd => List.mem_append_right _ (hv hd),
      Word.form_cons, List.append_assoc]
    exact Piece.run_sweep hs level hleft (Word.form c w ++ right) hp fun h v hv =>
      hblind h v fun d hd => List.mem_append_left _ (hv hd)

end Scan

/-! ## The resolution of an operand -/

/-- What follows the scan of a resolved text. -/
def finish (level : Nat) (c : Context) (v : Value) : Resolution Value :=
  restore <$> settle (nextRound (answer level) c.mergesAllowed) v

lemma run_resolve_eq (level : Nat) (c : Context) (t : Text) :
    (answer (level + 1) (.resolve (.str t))).run c =
      (sweep (answer level) {} t.reverse [] >>= finish level c).run c := by
  have hrun : (answer (level + 1) (.resolve (.str t))).run c =
      (restore <$> resolveText (answer level) c.mergesAllowed {} t).run c := rfl
  rw [hrun, ← Marks.delimiters_standard, resolveText_eq, map_bind]
  rfl

section Resolve

variable {c : Context} (hparams : c.scopes.templateParams = []) (level : Nat)

include hparams

lemma run_finish (v : Value) : (finish level c v).run c = .ok (restore v) c := by
  rw [finish, map_eq_pure_bind, run_bind_of_ok (run_settle_of_no_params _ v hparams)]
  rfl

/-- A text without tokens is resolved to itself. -/
lemma run_resolve_bare {t : Text} (ht : t.all isBare = true) :
    (answer (level + 1) (.resolve (.str t))).run c = .ok (.str (restoreText t)) c := by
  have hstart : '$' ∉ t := notMem_of_all_isBare ht (by decide)
  have hsweep := sweep_literal (answer level) Marks.standard hstart [] []
  rw [List.append_nil, List.append_nil, Marks.delimiters_standard] at hsweep
  rw [run_resolve_eq, hsweep, sweep, pure_bind]
  exact run_finish hparams level (.str t)

/-- A word is resolved to a value with the text that it stands for. -/
lemma run_resolve_word (hs : c.sources = builtinSources) {w : Word} (hw : ∀ p ∈ w, p.Fits)
    (hform : '\\' ∉ w.form c) :
    ∃ v, (answer (level + 1) (.resolve (.str w.text))).run c = .ok v c ∧
      v.text = restoreText (w.form c) := by
  have hend : ∀ v, (Value.text <$> finish level c v).run c = .ok (restore v).text c := by
    intro v
    rw [map_eq_pure_bind, run_bind_of_ok (run_finish hparams level v)]
    rfl
  -- The text of what comes of the word is the same for a value and for its text.
  have hstart : ∀ d ∈ ([] : Text).head?, isEscape d = false := by simp
  have hsweep := Word.run_sweep hs level hstart [] hw
    (k := fun v => Value.text <$> finish level c v) fun _ v hv => by
      rw [hend, hend, text_restore fun h => hform (hv h)]
      rfl
  rw [List.append_nil, List.append_nil, sweep, pure_bind, hend] at hsweep
  have htext : (Value.text <$> (sweep (answer level) {} w.text.reverse [] >>= finish level c)).run
      c = .ok (restoreText (w.form c)) c := by
    rw [map_bind]
    exact hsweep
  rw [map_eq_pure_bind] at htext
  obtain ⟨v, c', hv, hpure⟩ := exists_of_run_bind htext
  obtain ⟨hvalue, rfl⟩ : v.text = restoreText (w.form c) ∧ c' = c := by simpa using hpure
  exact ⟨v, (run_resolve_eq level _ _).trans hv, hvalue⟩

end Resolve

/-! ## The texts of operands -/

/-- The place of a condition: requests are answered with some calls left. -/
def place (level : Nat) (c : Context) : Place Context where
  handler := answer level
  state := c

/-- The text that an operand without tokens has. -/
def bareReading (t : Text) : Text :=
  match keyword? t with
  | some b => Value.boolText b
  | none => restoreText t

/-- No keyword has a start mark in it. -/
lemma keyword?_of_mem {t : Text} (ht : '$' ∈ t) : keyword? t = none := by
  have hspells : ∀ keyword : Text, '$' ∉ keyword → Text.spells keyword t = false := by
    intro keyword hkeyword
    rw [Text.spells, beq_eq_false_iff_ne]
    rintro rfl
    exact hkeyword (List.mem_map.2 ⟨'$', ht, by decide⟩)
  rw [keyword?, hspells _ (by decide), hspells _ (by decide)]
  rfl

section Reading

variable {c : Context} (hparams : c.scopes.templateParams = []) (level : Nat) {l : Leaf}

include hparams

lemma reads_bare {t : Text} (hl : Spells builtinFunctions l t) (ht : t.all isBare = true) :
    (place (level + 1) c).Reads l.reduced (bareReading t) := by
  cases hl with
  | @keyword b w hw hb =>
    rw [bareReading, hb]
    exact Place.reads_literal b
  | value hw hb hf =>
    rw [bareReading, hb]
    exact Place.reads_value (p := place (level + 1) c) (run_resolve_bare hparams level ht)
  | call hw hb hf ha =>
    exact absurd (by simp) (notMem_of_all_isBare ht (d := '(') (by decide))

lemma reads_word (hs : c.sources = builtinSources) {w : Word} (hw : w.Fits c)
    (htoken : w.hasToken = true) (hl : Spells builtinFunctions l w.text) :
    (place (level + 1) c).Reads l.reduced (restoreText (w.form c)) := by
  have hstart : '$' ∈ w.text := by
    obtain ⟨p, hp, htoken⟩ := List.any_eq_true.1 htoken
    refine List.mem_flatMap.2 ⟨p, hp, ?_⟩
    cases p with
    | plain t => cases htoken
    | token keyword scope key => simp [Piece.text]
  have hslash : '\\' ∉ w.form c := notMem_of_all_isBare (hw.form htoken).bare (by decide)
  generalize ht : w.text = t at hl hstart
  -- With a `$` in it the word is no keyword, and without a bracket no call.
  cases hl with
  | keyword _ hb =>
    rw [keyword?_of_mem hstart] at hb
    cases hb
  | value hword hb hf =>
    obtain ⟨v, hv, htext⟩ := run_resolve_word hparams level hs hw.pieces hslash
    rw [ht] at hv
    rw [← htext]
    exact Place.reads_value (p := place (level + 1) c) hv
  | call hword hb hf ha =>
    have hopen : ∀ ch ∈ w.text, ch ≠ '(' :=
      Word.forall_mem_text (fun ch h => ne_of_isBare (isBare_of_isPlain h) (by decide))
        (by decide) hw.pieces
    exact absurd rfl (hopen '(' (by rw [ht]; simp))

end Reading

end Stencil.Template
