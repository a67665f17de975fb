import Stencil.Proofs.Script.Conduct
import Stencil.Proofs.Text.Vocabulary
import Stencil.Proofs.Value.Printable
import Stencil.Template.Context

/-!
# Scripts within a vocabulary

Scripts pass on texts and values, and make others of them.  This file says what it means for values,
requests and scripts to stay within a vocabulary.

A value is in a vocabulary if the texts are that it is shown with (`Vocabulary.Holds`).  Resolution
may put other values into a list or a row, in place of texts in it that have something to resolve;
where there are such texts the vocabulary has to have whatever lists of its values are shown with
(`Vocabulary.ShowsLists`), as it does if it has the marks of lists and its texts quoted
(`showsLists_of_forms`, `showsLists_ofWords`).  A script stays within the vocabulary
(`Vocabulary.Stays`) if it asks for nothing and comes to nothing that is not in it, as long as it
gets no answer that is not.  What it leaves in the journal is free, since nothing reads that.
-/

namespace Stencil

/-- A text that resolution leaves alone: it has no token, no expression and no escape mark. -/
structure Text.IsInert (t : Text) : Prop where
  start : '$' ∉ t
  opening : ¬ ['#', '{'] <:+: t
  mark : Template.escapeMark ∉ t

namespace Value

mutual

/-- A value that resolution leaves alone, as it does all texts that it would change. -/
def Inert : Value → Prop
  | .str t => Text.IsInert t
  | .list items => AllInert items
  | .tuple items => AllInert items
  | _ => True

/-- Values that resolution leaves alone. -/
def AllInert : List Value → Prop
  | [] => True
  | v :: vs => Inert v ∧ AllInert vs

end

/-- Whether a value has no items or texts that resolution changes or looks up. -/
def isFixed : Value → Bool
  | .str _ | .list _ | .tuple _ | .dict _ => false
  | _ => true

end Value

namespace Vocabulary

variable (V : Vocabulary)

/-! ## Values -/

/-- What is shown of a value is in the vocabulary, and so are the texts within it.  A missing value
is never shown on its own. -/
structure Shows (v : Value) : Prop where
  text : V.Writes v.text
  display : v ≠ .none → V.Writes v.display
  strings : ∀ t ∈ v.strings, V.Writes t

/-- Whatever values the vocabulary shows, it shows lists and rows of them. -/
def ShowsLists : Prop :=
  ∀ items : List Value, (∀ v ∈ items, V.Shows v) → V.Shows (.list items) ∧ V.Shows (.tuple items)

/-- A value in the vocabulary. -/
inductive Holds : Value → Prop where
  | str {t : Text} (h : V.Writes t) : Holds (.str t)
  | fixed {v : Value} (hv : v.isFixed = true) (h : V.Shows v) : Holds v
  | dict {entries : Entries} (hentries : ∀ entry ∈ entries, Holds entry.2)
    (h : V.Shows (.dict entries)) : Holds (.dict entries)
  | list {items : List Value} (hitems : ∀ v ∈ items, Holds v) (h : V.Shows (.list items))
    (hothers : Value.AllInert items ∨ V.ShowsLists) : Holds (.list items)
  | tuple {items : List Value} (hitems : ∀ v ∈ items, Holds v) (h : V.Shows (.tuple items))
    (hothers : Value.AllInert items ∨ V.ShowsLists) : Holds (.tuple items)

variable {V}

lemma holds_none : V.Holds .none :=
  .fixed rfl ⟨V.nil, fun h => absurd rfl h, List.forall_mem_nil _⟩

lemma Holds.shows {v : Value} (hv : V.Holds v) : V.Shows v := by
  cases hv with
  | str h => exact ⟨h, fun _ => h, List.forall_mem_singleton.2 h⟩
  | fixed hv h => exact h
  | dict hentries h => exact h
  | list hitems h => exact h
  | tuple hitems h => exact h

/-- A value as it is put into a template. -/
lemma Holds.text {v : Value} (hv : V.Holds v) : V.Writes v.text := hv.shows.text

/-- The items of a list are in the vocabulary, and together with the list so is whatever they are
changed to, unless they are not changed at all. -/
lemma Holds.list_items {items : List Value} (hv : V.Holds (.list items)) :
    (∀ v ∈ items, V.Holds v) ∧ (Value.AllInert items ∨
      ∀ others : List Value, (∀ v ∈ others, V.Holds v) → V.Holds (.list others)) := by
  cases hv with
  | fixed hv => cases hv
  | list hitems _ hothers =>
    refine ⟨hitems, hothers.imp_right fun hlists others hothers => ?_⟩
    exact .list hothers (hlists others fun v hv => (hothers v hv).shows).1 (.inr hlists)

/-- The same for the items of a row. -/
lemma Holds.tuple_items {items : List Value} (hv : V.Holds (.tuple items)) :
    (∀ v ∈ items, V.Holds v) ∧ (Value.AllInert items ∨
      ∀ others : List Value, (∀ v ∈ others, V.Holds v) → V.Holds (.tuple others)) := by
  cases hv with
  | fixed hv => cases hv
  | tuple hitems _ hothers =>
    refine ⟨hitems, hothers.imp_right fun hlists others hothers => ?_⟩
    exact .tuple hothers (hlists others fun v hv => (hothers v hv).shows).2 (.inr hlists)

/-- The values of a mapping. -/
lemma Holds.dict_values {entries : Entries} (hv : V.Holds (.dict entries)) :
    ∀ entry ∈ entries, V.Holds entry.2 := by
  cases hv with
  | fixed hv => cases hv
  | dict hentries h => exact hentries

/-- What is found in a mapping is one of its values. -/
lemma holds_get {entries : Entries} (h : ∀ entry ∈ entries, V.Holds entry.2) (name : Text) :
    V.Holds (Entries.get entries name) := by
  unfold Entries.get Entries.find?
  cases hfind : List.find? (fun entry => entry.1.isNamed name) entries with
  | none => exact holds_none
  | some entry => exact h entry (List.mem_of_find?_eq_some hfind)

variable (V)

/-- Both booleans are in the vocabulary. -/
def ShowsBools : Prop := ∀ b, V.Shows (.bool b)

/-- The marks that lists and rows are written with. -/
def listMarks : Text := ['[', ']', '(', ')', ',', ' ']

/-- A vocabulary that has what lists and rows are written with, and its texts quoted. -/
structure ListForms : Prop where
  mark : ∀ c ∈ listMarks, V.Writes [c]
  none : V.Writes "None".toList
  quoted : ∀ t, V.Writes t → V.Writes (Text.quoted t)

section ListForms

variable {V} (hV : V.ListForms)

include hV

/-- A shown value as an item of a list. -/
lemma ListForms.literal {v : Value} (h : V.Shows v) : V.Writes v.literal := by
  by_cases hnone : v = .none
  · subst hnone
    exact hV.none
  · have hdisplay := h.display hnone
    cases v with
    | str t => exact hV.quoted t h.text
    | _ => exact hdisplay

/-- What stands between two marks of a list. -/
lemma ListForms.enclosed {o e : Char} (ho : o ∈ listMarks) (he : e ∈ listMarks) {t : Text}
    (ht : V.Writes t) : V.Writes (o :: t ++ [e]) :=
  V.append (V.append (hV.mark o ho) ht) (hV.mark e he)

/-- A vocabulary with all these forms has those of lists of its values. -/
lemma showsLists_of_forms : V.ShowsLists := by
  intro items hitems
  have hliterals : ∀ part ∈ Value.literals items, V.Writes part := by
    rw [Value.literals_eq_map]
    exact List.forall_mem_map.2 fun v hv => hV.literal (hitems v hv)
  have hstrings : ∀ t ∈ Value.allStrings items, V.Writes t := by
    intro t ht
    obtain ⟨v, hv, ht⟩ := Value.mem_allStrings.1 ht
    exact (hitems v hv).strings t ht
  have hjoined : V.Writes (Value.commaJoin (Value.literals items)) :=
    writes_join (V.append (hV.mark ',' (by decide)) (hV.mark ' ' (by decide))) hliterals
  have hlist : V.Writes (Value.list items).literal := hV.enclosed (by decide) (by decide) hjoined
  have htuple : V.Writes (Value.tuple items).literal := by
    -- A tuple of one item is shown with a comma behind it, and every other one as a list is.
    unfold Value.literal
    split
    · rename_i part hpart
      have hone : V.Writes part := hliterals part (hpart ▸ List.mem_singleton_self part)
      have hclosing := hV.enclosed (o := ',') (e := ')') (by decide) (by decide) V.nil
      simpa using V.append (hV.mark '(' (by decide)) (V.append hone hclosing)
    · exact hV.enclosed (by decide) (by decide) hjoined
  exact ⟨⟨hlist, fun _ => hlist, hstrings⟩, ⟨htuple, fun _ => htuple, hstrings⟩⟩

end ListForms

/-- Whether a text is quoted with some words: as one of them, or as one behind a backslash. -/
def isQuotable (words : List Text) (t : Text) : Bool :=
  ['\'', '"'].all fun quote => words.any fun w =>
    t.flatMap (Text.escapeChar quote) == w || t.flatMap (Text.escapeChar quote) == '\\' :: w

/-- What can be written with words shows lists if each of the words is quoted with them. -/
lemma showsLists_ofWords {words : List Text} (hwords : words.all isWord = true)
    (hmarks : (listMarks ++ ['\'', '"', '\\']).all (words.contains [·]) = true)
    (hnone : words.contains "None".toList = true)
    (hquoted : words.all (isQuotable words) = true) : (ofWords words hwords).ShowsLists := by
  have hword : ∀ w ∈ words, Spelled words w := fun w hw =>
    ⟨[w], List.cons_subset.2 ⟨hw, List.nil_subset _⟩, List.flatten_singleton⟩
  have hmark : ∀ c ∈ listMarks ++ ['\'', '"', '\\'], Spelled words [c] := fun c hc =>
    hword _ (List.contains_iff_mem.1 (List.all_eq_true.1 hmarks c hc))
  have hquoteFor : ∀ t, Text.quoteFor t ∈ ['\'', '"'] := by
    intro t
    unfold Text.quoteFor
    split <;> simp
  refine showsLists_of_forms ⟨fun c hc => hmark c (List.mem_append_left _ hc),
    hword _ (List.contains_iff_mem.1 hnone), fun t ht => ?_⟩
  have hquote : Spelled words [Text.quoteFor t] :=
    hmark _ (List.mem_append_right _ (List.mem_append_left ['\\'] (hquoteFor t)))
  -- Each word is quoted into a word, or into a backslash and a word.
  have hinner : Spelled words (t.flatMap (Text.escapeChar (Text.quoteFor t))) := by
    refine Spelled.flatMap (fun w hw => ?_) ht
    have hescaped := List.all_eq_true.1 (List.all_eq_true.1 hquoted w hw) _ (hquoteFor t)
    obtain ⟨u, hu, hescaped⟩ := List.any_eq_true.1 hescaped
    rcases Bool.or_eq_true_iff.1 hescaped with hsame | hbehind
    · exact eq_of_beq hsame ▸ hword u hu
    · exact eq_of_beq hbehind ▸ (hmark '\\' (by simp)).append (hword u hu)
  exact (hquote.append hinner).append hquote

/-! ## Requests -/

/-- A vocabulary whose texts are taken apart at a mark into texts of its own. -/
def SplitsAt (mark : Text) : Prop := ∀ s t, V.Writes (s ++ mark ++ t) → V.Writes s ∧ V.Writes t

/-- Marks of tokens that the texts of the vocabulary can be taken apart at. -/
structure Splits (marks : Template.Delimiters) : Prop where
  start : V.SplitsAt marks.start
  opening : V.SplitsAt marks.opening
  closing : V.SplitsAt marks.closing

/-- A request that speaks of nothing outside the vocabulary, and whose answer the library makes of
nothing outside. -/
def Asks : Request → Prop
  | .resolve v => V.Holds v
  | .resolveMarked marks t => V.Writes t ∧ V.Splits marks
  | .replaceParams t => V.Writes t
  | .check condition => V.Writes condition ∧ V.ShowsBools
  | .checkNested condition => V.Writes condition ∧ V.ShowsBools
  | .read _ name => V.Writes name
  | .assign _ name v => V.Writes name ∧ V.Holds v
  | .stack => ∀ c : Template.Context, V.Writes c.stackText
  | .note _ => True
  | .report _ => True

/-! ## Scripts -/

/-- A script that stays within the vocabulary as long as its answers do, and comes to what it
should. -/
inductive Stays {α : Type} (yields : α → Prop) : Script α → Prop where
  | value {a : α} (h : yields a) : Stays yields (.done (.ok a))
  | failure (e : Failure) : Stays yields (.done (.error e))
  | ask {q : Request} {next : Except Failure Value → Script α} (hq : V.Asks q)
      (hvalue : ∀ v, V.Holds v → Stays yields (next (.ok v)))
      (hfailure : ∀ e, Stays yields (next (.error e))) : Stays yields (.ask q next)

variable {V}

/-- The texts of every vocabulary can be taken apart at the standard marks. -/
lemma splits_standard : V.Splits {} :=
  ⟨fun _ _ => writes_around (List.cons_ne_nil _ _) (by decide),
    fun _ _ => writes_around (List.cons_ne_nil _ _) (by decide),
    fun _ _ => writes_around (List.cons_ne_nil _ _) (by decide)⟩

namespace Stays

variable {α β : Type} {yields : α → Prop} {goes : β → Prop}

protected lemma pure {a : α} (h : yields a) : V.Stays yields (pure a) := value h

protected lemma throw (e : Failure) : V.Stays yields (throw e : Script α) := failure e

lemma request {q : Request} (hq : V.Asks q) : V.Stays V.Holds (Script.request q) :=
  ask hq (fun _ hv => value hv) failure

lemma perform {q : Request} (hq : V.Asks q) : V.Stays (fun _ => True) (Script.perform q) :=
  ask hq (fun _ _ => value trivial) failure

protected lemma bind {x : Script α} {f : α → Script β} (hx : V.Stays yields x)
    (hf : ∀ a, yields a → V.Stays goes (f a)) : V.Stays goes (x >>= f) := by
  induction hx with
  | value h => exact hf _ h
  | failure e => exact failure e
  | ask hq _ _ ihv ihf => exact ask hq ihv ihf

end Stays

variable (V)

/-- Staying within a vocabulary is a conduct. -/
def conduct : Script.Conduct where
  holds := V.Stays
  pure h := .pure h
  throw _ := .throw _
  bind := .bind

variable {V}

protected lemma Stays.map {α β : Type} {yields : α → Prop} {goes : β → Prop} {x : Script α}
    {f : α → β} (hx : V.Stays yields x) (hf : ∀ a, yields a → goes (f a)) :
    V.Stays goes (f <$> x) := V.conduct.map hx hf

end Vocabulary

end Stencil
