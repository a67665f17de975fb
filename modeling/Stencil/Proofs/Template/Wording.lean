import Mathlib.Data.ENat.Lattice
import Mathlib.Logic.Relation
import Mathlib.Order.CompletePartialOrder
import Mathlib.Order.FixedPoints
import Stencil.Template.Merge
import Stencil.Template.Token

/-!
# Wordings and their expansion

A `Wording` is a text made of literal texts and references `#{name}`, and a `Book` gives the names
of parameters that are bound their wordings.  This file says what a wording means by recursion:
`Book.Expands` replaces each bound reference by the expansion of its parameter's value, and
`Book.depth` says how deep references lead, which is no finite number where they lead in a circle.

Merging goes another way.  A round (`Book.round`) puts the values for all bound references at once,
and what comes of it is merged again.  The two main statements are that the rounds arrive, and
where: as many rounds as the depth says leave no bound reference, and no fewer do
(`depth_le_iff_settled`), and then the text is what the wording means (`Settled.expands_iterate`).
Both rest on what one round does, which is to take one from the depth (`depth_le_succ_iff`) and to
leave the meaning alone (`Expands.of_round`).
-/

namespace Stencil.Template

/-! ## Wordings -/

/-- The characters that start references and tokens, and the one that is taken out of results. -/
def reserved : Text := ['#', '$', escapeMark]

/-- Whether a character may stand in a literal text. -/
def isPlainChar (c : Char) : Bool := !reserved.contains c

/-- Whether a character may stand in the name of a reference: it ends no name, sets off no default,
is not trimmed away, and starts nothing. -/
def isNameChar (c : Char) : Bool :=
  isPlainChar c && !endsName c && !Text.isBlank c && c != ',' && c != '{'

/-- A name of a parameter that can be referred to. -/
structure ParamName where
  text : Text
  ne_nil : text ≠ []
  plain : text.all isNameChar = true

/-- A piece of a wording. -/
inductive Chunk where
  | literal (t : Text) (plain : t.all isPlainChar = true)
  | reference (name : ParamName)

/-- The text of a piece. -/
def Chunk.text : Chunk → Text
  | .literal t _ => t
  | .reference name => '#' :: '{' :: (name.text ++ ['}'])

/-- A text made of literal texts and references. -/
abbrev Wording := List Chunk

/-- The text of a wording. -/
def Wording.text (w : Wording) : Text := w.flatMap Chunk.text

namespace Wording

@[simp] lemma text_nil : text [] = [] := rfl

@[simp] lemma text_cons (chunk : Chunk) (w : Wording) :
    text (chunk :: w) = chunk.text ++ text w := rfl

@[simp] lemma text_append (w v : Wording) : text (w ++ v) = text w ++ text v :=
  List.flatMap_append

end Wording

lemma ParamName.of_mem {name : ParamName} {c : Char} (hc : c ∈ name.text) :
    isPlainChar c = true ∧ endsName c = false ∧ Text.isBlank c = false ∧ c ≠ ',' := by
  have h := List.all_eq_true.1 name.plain c hc
  simp only [isNameChar, Bool.and_eq_true, Bool.not_eq_true', bne_iff_ne] at h
  obtain ⟨⟨⟨⟨hplain, hends⟩, hblank⟩, hcomma⟩, -⟩ := h
  exact ⟨hplain, hends, hblank, hcomma⟩

/-- Apart from the marks of a reference no piece has a reserved character. -/
lemma Chunk.notMem_text {c : Char} (hc : isPlainChar c = false) (hmark : c ≠ '#') (chunk : Chunk) :
    c ∉ chunk.text := by
  cases chunk with
  | literal t plain =>
    intro h
    rw [List.all_eq_true.1 plain c h] at hc
    cases hc
  | reference name =>
    have hname : c ∉ name.text := by
      intro h
      rw [(ParamName.of_mem h).1] at hc
      cases hc
    have hopening : c ≠ '{' ∧ c ≠ '}' := by
      constructor <;> rintro rfl <;> exact absurd hc (by decide)
    simp [Chunk.text, hmark, hopening, hname]

/-- A wording has no start mark of tokens and no escape mark. -/
lemma Wording.notMem_text (w : Wording) : '$' ∉ w.text ∧ escapeMark ∉ w.text := by
  simp only [Wording.text, List.mem_flatMap, not_exists, not_and]
  exact ⟨fun chunk _ => chunk.notMem_text (by decide) (by decide),
    fun chunk _ => chunk.notMem_text (by decide) (by decide)⟩

/-! ## Books -/

/-- The wordings of the parameters, by name. -/
abbrev Book := ParamName → Option Wording

namespace Book

variable (book : Book)

/-- The book says what the parameters are. -/
def Describes (params : Entries) : Prop :=
  ∀ name : ParamName, params.find? name.text = (book name).map fun w => .str w.text

/-- A wording has a reference to a parameter with the value `v`. -/
def Refers (w v : Wording) : Prop := ∃ name, .reference name ∈ w ∧ book name = some v

/-- A wording has no reference to a parameter that is bound. -/
def Settled (w : Wording) : Prop := ∀ name, .reference name ∈ w → book name = none

/-- How deep the references of a wording lead: nothing if none is bound, and otherwise one more than
the greatest depth of the values that it refers to. -/
noncomputable def depth : Wording → ℕ∞ :=
  OrderHom.lfp
    { toFun := fun d w => ⨆ v, ⨆ _ : book.Refers w v, d v + 1
      monotone' := fun _ _ h _ => iSup₂_mono fun v _ => add_le_add_left (h v) 1 }

/-- The meaning of a wording: each reference to a bound parameter is the expansion of the
parameter's value, and everything else is left as it is. -/
inductive Expands : Wording → Text → Prop
  | nil : Expands [] []
  | literal {s plain w t} : Expands w t → Expands (.literal s plain :: w) (s ++ t)
  | unbound {name w t} : book name = none → Expands w t →
      Expands (.reference name :: w) ((Chunk.reference name).text ++ t)
  | bound {name v w s t} : book name = some v → Expands v s → Expands w t →
      Expands (.reference name :: w) (s ++ t)

/-- A piece with its parameter's value put for it, if it is a reference to one that is bound. -/
def merge : Chunk → Wording
  | .literal t plain => [.literal t plain]
  | .reference name => (book name).getD [.reference name]

/-- A wording with every bound reference replaced by its parameter's value. -/
def round (w : Wording) : Wording := w.flatMap book.merge

@[simp] lemma round_nil : book.round [] = [] := rfl

@[simp] lemma round_cons (chunk : Chunk) (w : Wording) :
    book.round (chunk :: w) = book.merge chunk ++ book.round w := rfl

@[simp] lemma round_append (w v : Wording) : book.round (w ++ v) = book.round w ++ book.round v :=
  List.flatMap_append

variable {book}

/-- Parameters that all have wordings for values are described by a book. -/
lemma exists_describes {params : Entries}
    (h : ∀ entry ∈ params, ∃ w : Wording, entry.2 = .str w.text) :
    ∃ book : Book, book.Describes params := by
  have hname : ∀ name : ParamName, ∃ value : Option Wording,
      params.find? name.text = value.map fun w => .str w.text := by
    intro name
    -- Of several entries under one name the first counts, as it does in the search.
    cases hfind : List.find? (fun entry => entry.1.isNamed name.text) params with
    | none => exact ⟨none, by rw [Entries.find?, hfind]; rfl⟩
    | some entry =>
      obtain ⟨w, hw⟩ := h entry (List.mem_of_find?_eq_some hfind)
      exact ⟨some w, by rw [Entries.find?, hfind, Option.map_some, hw]; rfl⟩
  choose book hbook using hname
  exact ⟨book, hbook⟩

/-! ## Bound references -/

/-- A wording refers to no value iff it has no bound reference. -/
lemma settled_iff {w : Wording} : book.Settled w ↔ ∀ v, ¬ book.Refers w v := by
  constructor
  · rintro h v ⟨name, hname, hv⟩
    rw [h name hname] at hv
    cases hv
  · intro h name hname
    cases hv : book name with
    | none => rfl
    | some v => exact absurd ⟨name, hname, hv⟩ (h v)

@[simp] lemma settled_nil : book.Settled [] := by
  intro name hname
  cases hname

lemma settled_cons {chunk : Chunk} {w : Wording} :
    book.Settled (chunk :: w) ↔ book.Settled [chunk] ∧ book.Settled w := by
  simp only [Settled, List.mem_cons, List.not_mem_nil, or_false, or_imp, forall_and]

@[simp] lemma settled_literal {t : Text} {plain : t.all isPlainChar = true} :
    book.Settled [.literal t plain] := by
  intro name hname
  cases List.mem_singleton.1 hname

@[simp] lemma settled_reference {name : ParamName} :
    book.Settled [.reference name] ↔ book name = none := by
  constructor
  · intro h
    exact h name (List.mem_singleton_self _)
  · intro h other hother
    cases List.mem_singleton.1 hother
    exact h

/-- A piece is a bound reference or nothing to merge. -/
lemma exists_of_not_settled {chunk : Chunk} (h : ¬ book.Settled [chunk]) :
    ∃ name v, chunk = .reference name ∧ book name = some v := by
  cases chunk with
  | literal t plain => exact absurd settled_literal h
  | reference name =>
    rw [settled_reference] at h
    obtain ⟨v, hv⟩ := Option.ne_none_iff_exists'.1 h
    exact ⟨name, v, rfl, hv⟩

/-! ## Depth -/

lemma depth_eq (w : Wording) : book.depth w = ⨆ v, ⨆ _ : book.Refers w v, book.depth v + 1 :=
  (congrFun (OrderHom.map_lfp _) w).symm

lemma depth_le_iff {w : Wording} {n : ℕ∞} :
    book.depth w ≤ n ↔ ∀ v, book.Refers w v → book.depth v + 1 ≤ n := by
  rw [depth_eq]
  exact iSup₂_le_iff

/-- A round leaves the references of the values that were referred to. -/
lemma refers_round_iff {w u : Wording} :
    book.Refers (book.round w) u ↔ ∃ v, book.Refers w v ∧ book.Refers v u := by
  constructor
  · rintro ⟨name, hname, hu⟩
    obtain ⟨chunk, hchunk, hname⟩ := List.mem_flatMap.1 hname
    cases chunk with
    | literal t plain => simp [merge] at hname
    | reference other =>
      cases hother : book other with
      | none =>
        obtain rfl : name = other := by simpa [merge, hother] using hname
        rw [hother] at hu
        cases hu
      | some v =>
        have hmem : .reference name ∈ v := by simpa [merge, hother] using hname
        exact ⟨v, ⟨other, hchunk, hother⟩, name, hmem, hu⟩
  · rintro ⟨v, ⟨name, hname, hv⟩, other, hother, hu⟩
    refine ⟨other, List.mem_flatMap.2 ⟨.reference name, hname, ?_⟩, hu⟩
    rw [merge, hv]
    exact hother

/-- The depth is nothing where no reference is bound. -/
lemma depth_le_zero_iff {w : Wording} : book.depth w ≤ 0 ↔ book.Settled w := by
  rw [depth_le_iff, settled_iff]
  refine forall_congr' fun v => imp_congr_right fun _ => ?_
  simp

/-- A round takes one from the depth. -/
lemma depth_le_succ_iff {w : Wording} {n : ℕ} :
    book.depth w ≤ (n + 1 : ℕ) ↔ book.depth (book.round w) ≤ n := by
  have hone : ∀ v, book.depth v + 1 ≤ (n + 1 : ℕ) ↔ book.depth v ≤ n := by
    intro v
    rw [Nat.cast_add, Nat.cast_one]
    exact ENat.add_le_add_iff_right ENat.one_ne_top
  calc book.depth w ≤ (n + 1 : ℕ)
      ↔ ∀ v, book.Refers w v → ∀ u, book.Refers v u → book.depth u + 1 ≤ n := by
        rw [depth_le_iff]
        refine forall_congr' fun v => imp_congr_right fun _ => ?_
        rw [hone, depth_le_iff]
    _ ↔ ∀ u, book.Refers (book.round w) u → book.depth u + 1 ≤ n := by
        constructor
        · intro h u hu
          obtain ⟨v, hv, hu⟩ := refers_round_iff.1 hu
          exact h v hv u hu
        · intro h v hv u hu
          exact h u (refers_round_iff.2 ⟨v, hv, hu⟩)
    _ ↔ book.depth (book.round w) ≤ n := depth_le_iff.symm

/-- The depth is the number of rounds that it takes until no reference is bound. -/
lemma depth_le_iff_settled {w : Wording} {n : ℕ} :
    book.depth w ≤ n ↔ book.Settled (book.round^[n] w) := by
  induction n generalizing w with
  | zero => exact depth_le_zero_iff
  | succ n ih => rw [depth_le_succ_iff, ih, Function.iterate_succ_apply]

/-- Each reference on a way from one wording to another is one more of depth. -/
lemma depth_add_one_le {w v : Wording} (h : Relation.TransGen book.Refers w v) :
    book.depth v + 1 ≤ book.depth w := by
  have hone : ∀ {w v}, book.Refers w v → book.depth v + 1 ≤ book.depth w :=
    fun h => depth_le_iff.1 le_rfl _ h
  induction h with
  | single h => exact hone h
  | tail _ h ih => exact (hone h).trans (le_self_add.trans ih)

/-- References that lead in a circle have no finite depth. -/
lemma depth_eq_top {w v : Wording} (hv : Relation.ReflTransGen book.Refers w v)
    (hcircle : Relation.TransGen book.Refers v v) : book.depth w = ⊤ := by
  have htop : book.depth v = ⊤ := by
    by_contra hfinite
    exact lt_irrefl _ ((ENat.add_one_le_iff hfinite).1 (depth_add_one_le hcircle))
  rcases Relation.reflTransGen_iff_eq_or_transGen.1 hv with rfl | hv
  · exact htop
  · have h := depth_add_one_le hv
    rw [htop, top_add] at h
    exact top_le_iff.1 h

/-! ## Meaning -/

/-- A wording has no more than one meaning. -/
lemma Expands.unique {w : Wording} {s t : Text} (hs : book.Expands w s) (ht : book.Expands w t) :
    s = t := by
  -- By induction on the first meaning; whether a name is bound decides on the rule in both.
  induction hs generalizing t with
  | nil =>
    cases ht
    rfl
  | literal _ ih =>
    cases ht with
    | literal ht => rw [ih ht]
  | unbound hname _ ih =>
    cases ht with
    | unbound _ ht => rw [ih ht]
    | bound hv _ _ =>
      rw [hname] at hv
      cases hv
  | bound hv _ _ ihv ihw =>
    cases ht with
    | unbound hname _ =>
      rw [hname] at hv
      cases hv
    | bound hv' hs' ht =>
      rw [hv] at hv'
      cases hv'
      rw [ihv hs', ihw ht]

lemma Expands.append {w v : Wording} {s u : Text} (hs : book.Expands w s) (hu : book.Expands v u) :
    book.Expands (w ++ v) (s ++ u) := by
  induction hs with
  | nil => exact hu
  | literal _ ih =>
    rw [List.append_assoc]
    exact .literal ih
  | unbound hname _ ih =>
    rw [List.append_assoc]
    exact .unbound hname ih
  | bound hv hs _ _ ih =>
    rw [List.append_assoc]
    exact .bound hv hs ih

/-- What two wordings one after the other mean is what they mean, one after the other. -/
lemma Expands.exists_of_append {w v : Wording} {t : Text} (h : book.Expands (w ++ v) t) :
    ∃ s u, book.Expands w s ∧ book.Expands v u ∧ t = s ++ u := by
  induction w generalizing t with
  | nil => exact ⟨[], t, .nil, h, rfl⟩
  | cons chunk w ih =>
    cases h with
    | literal h =>
      obtain ⟨s, u, hs, hu, rfl⟩ := ih h
      exact ⟨_, u, .literal hs, hu, (List.append_assoc ..).symm⟩
    | unbound hname h =>
      obtain ⟨s, u, hs, hu, rfl⟩ := ih h
      exact ⟨_, u, .unbound hname hs, hu, (List.append_assoc ..).symm⟩
    | bound hv hs' h =>
      obtain ⟨s, u, hs, hu, rfl⟩ := ih h
      exact ⟨_, u, .bound hv hs' hs, hu, (List.append_assoc ..).symm⟩

/-- A wording without bound references means its text. -/
lemma Settled.expands {w : Wording} (h : book.Settled w) : book.Expands w w.text := by
  induction w with
  | nil => exact .nil
  | cons chunk w ih =>
    obtain ⟨hchunk, hw⟩ := settled_cons.1 h
    cases chunk with
    | literal t plain => exact .literal (ih hw)
    | reference name => exact .unbound (settled_reference.1 hchunk) (ih hw)

/-- A round leaves the meaning alone. -/
lemma Expands.of_round {w : Wording} {t : Text} (h : book.Expands (book.round w) t) :
    book.Expands w t := by
  induction w generalizing t with
  | nil => exact h
  | cons chunk w ih =>
    obtain ⟨s, u, hs, hu, rfl⟩ := h.exists_of_append
    cases chunk with
    | literal r plain => exact Expands.append hs (ih hu)
    | reference name =>
      -- In the place of a bound reference the round has what the book says, whose meaning is put
      -- there.
      cases hname : book name with
      | none =>
        rw [merge, hname] at hs
        exact Expands.append hs (ih hu)
      | some v =>
        rw [merge, hname] at hs
        exact .bound hname hs (ih hu)

/-- As many rounds as it takes until no reference is bound give a wording's meaning. -/
lemma Settled.expands_iterate {w : Wording} {n : ℕ} (h : book.Settled (book.round^[n] w)) :
    book.Expands w (Wording.text (book.round^[n] w)) := by
  induction n generalizing w with
  | zero => exact h.expands
  | succ n ih =>
    rw [Function.iterate_succ_apply] at h ⊢
    exact (ih h).of_round

/-- A wording without bound references is its own round. -/
lemma Settled.round_eq {w : Wording} (h : book.Settled w) : book.round w = w := by
  induction w with
  | nil => rfl
  | cons chunk w ih =>
    obtain ⟨hchunk, hw⟩ := settled_cons.1 h
    cases chunk with
    | literal t plain => rw [round_cons, ih hw, merge, List.singleton_append]
    | reference name =>
      rw [round_cons, ih hw, merge, settled_reference.1 hchunk, Option.getD_none,
        List.singleton_append]

end Book

end Stencil.Template
