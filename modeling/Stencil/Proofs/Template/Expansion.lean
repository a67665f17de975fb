import Mathlib.Data.List.TakeWhile
import Stencil.Proofs.Template.Nesting
import Stencil.Proofs.Template.Wording
import Stencil.Proofs.Text.Pieces
import Stencil.Proofs.Text.Spelling

/-!
# Merging expands wordings

A resolution merges the template parameters in rounds, by searching the text for expressions whose
parameters are bound and putting the values for them from the left to the right.  For texts that
`Wording` describes, this file carries the rounds over to wordings: the search finds the first bound
reference (`Describes.firstBound?_text`), merging all of a text is a `Book.round`
(`Describes.mergeAll_text`), and the expression that is the whole text, whose value is resolved in
place of a merged text, makes no difference (`Describes.run_mergeParams_of_not_settled`).

With the count of rounds from `Stencil.Proofs.Template.Wording` this gives the main statement,
`run_resolveValue_wording`: a wording resolves to its expansion if its depth is within the merges
that the context allows, and it is a failure otherwise.
-/

namespace Stencil.Template

/-! ## The search for expressions -/

section Search

variable (params : Entries)

/-- The first bound expression, in terms of the first expression. -/
lemma firstBound?_eq (t : Text) :
    firstBound? params t =
      (cutOpening? t).bind fun (before, inner) =>
        (splitName inner).bind fun (name, ending, after) =>
          if (lookUpParam params (Text.trim name)).isSome then
            some { before, value := lookUpParam params (Text.trim name), ending, after }
          else (firstBound? params after).map fun b =>
            { b with before := before ++ '#' :: '{' :: name ++ ending :: b.before } := by
  rw [firstBound?]
  split
  · rename_i hcut
    rw [hcut, Option.bind_none]
  · rename_i before inner hcut
    simp only [hcut, Option.bind_some]
    split
    · rename_i hname
      rw [hname, Option.bind_none]
    · rename_i name ending after hname
      simp only [hname, Option.bind_some]

lemma firstBound?_nil : firstBound? params [] = none := by
  rw [firstBound?_eq]
  rfl

/-- A text without `#` is passed over. -/
lemma cutOpening?_append {s : Text} (hs : '#' ∉ s) (t : Text) :
    cutOpening? (s ++ t) =
      (cutOpening? t).map fun (before, inner) => (s ++ before, inner) := by
  rw [cutOpening?, cutOpening?, Text.cut?_append hs]
  cases Text.cut? ['#', '{'] t with
  | none => rfl
  | some cut => by_cases h : 2 ≤ cut.2.length <;> simp [h]

lemma firstBound?_append {s : Text} (hs : '#' ∉ s) (t : Text) :
    firstBound? params (s ++ t) =
      (firstBound? params t).map fun b => { b with before := s ++ b.before } := by
  rw [firstBound?_eq, firstBound?_eq params t, cutOpening?_append hs]
  cases cutOpening? t with
  | none => rfl
  | some cut =>
    cases hn : splitName cut.2 with
    | none => simp [hn]
    | some split =>
      by_cases hv : (lookUpParam params (Text.trim split.1)).isSome <;>
        simp [hn, hv, Function.comp_def]

/-- A name is told from what stands behind it. -/
lemma splitName_append {name : Text} (hname : ∀ c ∈ name, endsName c = false) {ending : Char}
    (hends : endsName ending = true) (after : Text) :
    splitName (name ++ ending :: after) = some (name, ending, after) := by
  have hpass : ∀ c ∈ name, (!endsName c) = true := by
    intro c hc
    rw [hname c hc]
    rfl
  rw [splitName, List.dropWhile_append_of_pos hpass, List.takeWhile_append_of_pos hpass]
  simp [hends]

lemma endsName_of_dropWhile {inner after : Text} {ending : Char}
    (h : inner.dropWhile (!endsName ·) = ending :: after) : endsName ending = true := by
  have hhead := List.head_dropWhile_not (l := inner) (!endsName ·) (by simp [h])
  simpa [h] using hhead

lemma splitName_eq_some {inner name after : Text} {ending : Char}
    (h : splitName inner = some (name, ending, after)) :
    inner = name ++ ending :: after ∧ endsName ending = true := by
  unfold splitName at h
  split at h
  · cases h
  · rename_i hdrop
    obtain ⟨rfl, rfl, rfl⟩ : _ ∧ _ ∧ _ := by simpa using h
    exact ⟨by rw [← hdrop, List.takeWhile_append_dropWhile], endsName_of_dropWhile hdrop⟩

/-- The first expression, bound or not: the text before it, its name, the character that ends the
name, and the text after that. -/
def expression? (t : Text) : Option (Text × Text × Char × Text) :=
  (cutOpening? t).bind fun (before, inner) => (splitName inner).map (before, ·)

lemma expression?_eq_some {t before name after : Text} {ending : Char}
    (h : expression? t = some (before, name, ending, after)) :
    t = before ++ '#' :: '{' :: (name ++ ending :: after) ∧ endsName ending = true := by
  obtain ⟨⟨b, inner⟩, hcut, h⟩ := Option.bind_eq_some_iff.1 h
  obtain ⟨⟨n, e, a⟩, hsplit, h⟩ := Option.map_eq_some_iff.1 h
  obtain ⟨rfl, rfl, rfl, rfl⟩ : b = before ∧ n = name ∧ e = ending ∧ a = after := by simpa using h
  have hcut' : Text.cut? ['#', '{'] t = some (b, inner) := by
    unfold cutOpening? at hcut
    split at hcut
    · rename_i hcut'
      split at hcut
      · rw [hcut', hcut]
      · cases hcut
    · cases hcut
  obtain ⟨hinner, hends⟩ := splitName_eq_some hsplit
  refine ⟨?_, hends⟩
  rw [← Text.append_of_cut? hcut', hinner]
  simp

/-- The search for a bound expression goes from one expression to the next. -/
lemma firstBound?_eq_bind (t : Text) :
    firstBound? params t =
      (expression? t).bind fun (before, name, ending, after) =>
        if (lookUpParam params (Text.trim name)).isSome then
          some { before, value := lookUpParam params (Text.trim name), ending, after }
        else (firstBound? params after).map fun b =>
          { b with before := before ++ '#' :: '{' :: name ++ ending :: b.before } := by
  rw [firstBound?_eq, expression?, Option.bind_assoc]
  congr 1
  funext ⟨before, inner⟩
  rw [Option.bind_map]
  rfl

/-- What is found is an expression of the text, with the value of what stands for its name. -/
lemma firstBound?_eq_some {t : Text} {b : Bound} (h : firstBound? params t = some b) :
    ∃ name, t = b.before ++ '#' :: '{' :: (name ++ b.ending :: b.after) ∧
      endsName b.ending = true ∧ b.value = lookUpParam params (Text.trim name) := by
  -- By induction on the length, for the search goes on behind an expression that is not bound.
  induction hn : t.length using Nat.strong_induction_on generalizing t b with
  | _ n ih =>
    rw [firstBound?_eq_bind] at h
    obtain ⟨⟨before, name, ending, after⟩, hx, hfound⟩ := Option.bind_eq_some_iff.1 h
    obtain ⟨rfl, hends⟩ := expression?_eq_some hx
    simp only at hfound
    split at hfound
    · obtain rfl := Option.some.inj hfound
      exact ⟨name, rfl, hends, rfl⟩
    · obtain ⟨b', hb', rfl⟩ := Option.map_eq_some_iff.1 hfound
      have hlt : after.length < n := by
        rw [← hn]
        simp
        omega
      obtain ⟨name', rfl, hends', hvalue⟩ := ih _ hlt hb' rfl
      exact ⟨name', by simp, hends', hvalue⟩

/-- The first bound expression of a text that starts with an expression. -/
lemma firstBound?_expression {name : Text} (hname : ∀ c ∈ name, endsName c = false) {ending : Char}
    (hends : endsName ending = true) {after : Text} (hroom : name ≠ [] ∨ after ≠ []) :
    firstBound? params ('#' :: '{' :: (name ++ ending :: after)) =
      if (lookUpParam params (Text.trim name)).isSome then
        some { before := [], value := lookUpParam params (Text.trim name), ending, after }
      else (firstBound? params after).map fun b =>
        { b with before := '#' :: '{' :: (name ++ ending :: b.before) } := by
  have hlength : 2 ≤ (name ++ ending :: after).length := by
    rw [← List.length_pos_iff, ← List.length_pos_iff] at hroom
    rw [List.length_append, List.length_cons]
    omega
  have hcut : cutOpening? ('#' :: '{' :: (name ++ ending :: after)) =
      some ([], name ++ ending :: after) := by
    have hstart : Text.cut? ['#', '{'] ('#' :: '{' :: (name ++ ending :: after)) =
        some ([], name ++ ending :: after) := by
      simp [Text.cut?, List.isPrefixOf]
    rw [cutOpening?, hstart]
    exact if_pos hlength
  rw [firstBound?_eq, hcut]
  simp only [Option.bind_some, splitName_append hname hends]
  rfl

end Search

/-! ## References -/

/-- What sets off no default is a name. -/
lemma lookUpParam_of_notMem (params : Entries) {token : Text} (htoken : ',' ∉ token) :
    lookUpParam params token = Entries.get params (Text.trim token) := by
  rw [lookUpParam, Text.partition_of_notMem htoken]
  simp only
  cases Entries.get params (Text.trim token) <;> rfl

/-- A name without whitespace and commas is looked up as it is. -/
lemma lookUpParam_name (params : Entries) {name : Text}
    (hname : ∀ c ∈ name, Text.isBlank c = false ∧ c ≠ ',') :
    lookUpParam params (Text.trim name) = Entries.get params name := by
  have htrim : Text.trim name = name := Text.trim_eq_self fun c hc => (hname c hc).1
  rw [htrim, lookUpParam_of_notMem params fun h => (hname _ h).2 rfl, htrim]

/-- The search at a reference. -/
lemma ParamName.firstBound?_reference (name : ParamName) (params : Entries) (t : Text) :
    firstBound? params ((Chunk.reference name).text ++ t) =
      if (Entries.get params name.text).isSome then
        some { before := [], value := Entries.get params name.text, ending := '}', after := t }
      else (firstBound? params t).map fun b =>
        { b with before := (Chunk.reference name).text ++ b.before } := by
  have hends : ∀ c ∈ name.text, endsName c = false := fun _ hc => (ParamName.of_mem hc).2.1
  have htext : ∀ t, (Chunk.reference name).text ++ t = '#' :: '{' :: (name.text ++ '}' :: t) := by
    intro t
    simp [Chunk.text]
  rw [htext, firstBound?_expression params hends (by decide) (.inl name.ne_nil),
    lookUpParam_name params fun _ hc => (ParamName.of_mem hc).2.2]
  simp only [htext]

namespace Book

variable {book : Book} {params : Entries}

/-- The parameter that a reference is to. -/
lemma Describes.get_text (hbook : book.Describes params) (name : ParamName) :
    Entries.get params name.text = ((book name).map fun w => Value.str w.text).getD .none := by
  rw [Entries.get, hbook name]

/-- What is no bound reference is passed over. -/
lemma Describes.firstBound?_skip (hbook : book.Describes params) {chunk : Chunk}
    (hchunk : book.Settled [chunk]) (t : Text) :
    firstBound? params (chunk.text ++ t) =
      (firstBound? params t).map fun b => { b with before := chunk.text ++ b.before } := by
  cases chunk with
  | literal s plain =>
    have hs : '#' ∉ s := fun h => absurd (List.all_eq_true.1 plain _ h) (by decide)
    exact firstBound?_append params hs t
  | reference name =>
    have hname := settled_reference.1 hchunk
    rw [name.firstBound?_reference, hbook.get_text, hname]
    rfl

/-- A bound reference is found. -/
lemma Describes.firstBound?_bound (hbook : book.Describes params) {name : ParamName} {v : Wording}
    (hname : book name = some v) (t : Text) :
    firstBound? params ((Chunk.reference name).text ++ t) =
      some { before := [], value := .str v.text, ending := '}', after := t } := by
  rw [name.firstBound?_reference, hbook.get_text, hname]
  rfl

/-- The first bound reference of a wording, if it has one, is the first bound expression of its
text. -/
lemma Describes.firstBound?_text (hbook : book.Describes params) (w : Wording) :
    (book.Settled w ∧ firstBound? params w.text = none) ∨
      ∃ before name v after, w = before ++ .reference name :: after ∧ book.Settled before ∧
        book name = some v ∧ firstBound? params w.text =
          some { before := Wording.text before, value := .str v.text, ending := '}',
                 after := Wording.text after } := by
  induction w with
  | nil =>
    exact .inl ⟨settled_nil, firstBound?_nil params⟩
  | cons chunk w ih =>
    by_cases hchunk : book.Settled [chunk]
    · rw [Wording.text_cons, hbook.firstBound?_skip hchunk]
      rcases ih with ⟨hw, hnone⟩ | ⟨before, name, v, after, rfl, hbefore, hname, hsome⟩
      · exact .inl ⟨settled_cons.2 ⟨hchunk, hw⟩, by rw [hnone, Option.map_none]⟩
      · exact .inr ⟨chunk :: before, name, v, after, rfl, settled_cons.2 ⟨hchunk, hbefore⟩, hname,
          by rw [hsome]; rfl⟩
    · obtain ⟨name, v, rfl, hv⟩ := exists_of_not_settled hchunk
      exact .inr ⟨[], name, v, w, rfl, settled_nil, hv, hbook.firstBound?_bound hv _⟩

lemma Describes.firstBound?_of_settled (hbook : book.Describes params) {w : Wording}
    (hw : book.Settled w) : firstBound? params w.text = none := by
  rcases hbook.firstBound?_text w with ⟨-, hnone⟩ | ⟨before, name, v, after, rfl, -, hname, -⟩
  · exact hnone
  · rw [hw name (by simp)] at hname
    cases hname

end Book

/-! ## Rounds of merging -/

section Merge

variable {params : Entries} {done t : Text}

lemma mergeAll_of_none (h : firstBound? params t = none) :
    mergeAll params done t = { stages := [], text? := some (done ++ t) } := by
  rw [mergeAll]
  split
  · rfl
  · rename_i b hb
    rw [h] at hb
    cases hb

lemma mergeAll_of_closing {b : Bound} (h : firstBound? params t = some b) (hb : b.ending = '}') :
    mergeAll params done t = mergeAll params (done ++ b.before ++ b.value.text) b.after := by
  rw [mergeAll]
  split
  · rename_i hnone
    rw [h] at hnone
    cases hnone
  · rename_i b' hb'
    obtain rfl : b = b' := Option.some.inj (h.symm.trans hb')
    rw [if_pos hb]

/-- A value whose expression goes on is merged into the expression. -/
lemma mergeAll_of_ending {b : Bound} (h : firstBound? params t = some b) (hb : b.ending ≠ '}') :
    mergeAll params done t =
      match Text.cut? ['}'] b.after with
      | none => { stages := [], text? := none }
      | some (middle, after) =>
        let done :=
          done ++ b.before ++ '#' :: '{' :: bareText b.value ++ b.ending :: middle ++ ['}']
        let rest := mergeAll params done after
        { rest with stages := done :: rest.stages } := by
  rw [mergeAll]
  split
  · rename_i hnone
    rw [h] at hnone
    cases hnone
  · rename_i b' hb'
    obtain rfl : b = b' := Option.some.inj (h.symm.trans hb')
    rw [if_neg hb]
    split
    · rename_i hcut
      rw [hcut]
    · rename_i hcut
      rw [hcut]

/-- Where nothing is bound, merging is at its end. -/
lemma run_mergeParams_of_none {c : Context} (h : firstBound? c.scopes.templateParams t = none)
    (next : Option (Text → Resolution Value)) :
    (mergeParams next t).run c = .ok (.str t) c := by
  rw [mergeParams, run_bind_of_ok (EStateM.run_get c)]
  simp only [h, ite_self]
  rfl

/-- Where nothing is bound, the operation takes out the escape marks and does nothing else. -/
lemma run_replaceParams_of_none {c : Context} (h : firstBound? c.scopes.templateParams t = none) :
    (replaceParams t).run c = .ok (.str (restoreText t)) c := by
  have hround := run_mergeParams_of_none h (nextRound (handlerOf c) c.mergesAllowed)
  rw [run_replaceParams, map_eq_pure_bind, run_bind_of_ok hround]
  rfl

end Merge

namespace Book

variable {book : Book} {params : Entries}

/-- Merging all bound expressions of a wording's text is a round. -/
lemma Describes.mergeAll_text (hbook : book.Describes params) (w : Wording) (done : Text) :
    mergeAll params done w.text =
      { stages := [], text? := some (done ++ Wording.text (book.round w)) } := by
  -- By induction on the length: what is merged goes on behind the first bound reference.
  induction hn : w.length using Nat.strong_induction_on generalizing w done with
  | _ n ih =>
    rcases hbook.firstBound?_text w with
      ⟨hsettled, hnone⟩ | ⟨before, name, v, after, rfl, hsettled, hname, hsome⟩
    · rw [mergeAll_of_none hnone, hsettled.round_eq]
    · have hafter : after.length < n := by
        rw [← hn, List.length_append, List.length_cons]
        omega
      rw [mergeAll_of_closing hsome rfl, ih _ hafter after _ rfl]
      simp [hsettled.round_eq, merge, hname]

/-- A template that is a single bound expression is its value, and so is its round. -/
lemma Describes.text_of_whole (hbook : book.Describes params) {w : Wording} {v : Text}
    (h : firstBound? params w.text =
      some { before := [], value := .str v, ending := '}', after := [] }) :
    Wording.text (book.round w) = v := by
  have hmerged := hbook.mergeAll_text w []
  rw [mergeAll_of_closing h rfl, mergeAll_of_none (firstBound?_nil params)] at hmerged
  simpa using hmerged.symm

variable {c : Context} (hbook : book.Describes c.scopes.templateParams)

include hbook

/-- Expressions are looked for only where there are parameters, but a wording has no bound ones
otherwise. -/
lemma Describes.search_eq {w : Wording} {found : Option Bound}
    (h : firstBound? c.scopes.templateParams w.text = found) :
    (if c.scopes.templateParams.isEmpty then none
      else firstBound? c.scopes.templateParams w.text) = found := by
  by_cases hempty : c.scopes.templateParams.isEmpty = true
  · have hsettled : book.Settled w := by
      intro name _
      have h := hbook name
      rw [List.isEmpty_iff.1 hempty] at h
      exact Option.map_eq_none_iff.1 h.symm
    rw [if_pos hempty, ← h, hbook.firstBound?_of_settled hsettled]
  · rw [if_neg hempty, h]

/-- A bound reference is a failure if no merge is left, and otherwise the next round resolves the
wording's round, whether or not the reference is the whole wording. -/
lemma Describes.run_mergeParams_of_not_settled {w : Wording} (hw : ¬ book.Settled w) :
    (mergeParams none w.text).run c =
        .error (.resolution (.unsettled w.text c.mergeLimit)) c ∧
      ∀ resolve, (mergeParams (some resolve) w.text).run c =
        (resolve (Wording.text (book.round w))).run c := by
  rcases hbook.firstBound?_text w with ⟨hsettled, -⟩ | ⟨before, name, v, after, -, -, -, hsome⟩
  · exact absurd hsettled hw
  · constructor
    · rw [mergeParams, run_bind_of_ok (EStateM.run_get c)]
      simp only [hbook.search_eq hsome, restoreText_of_notMem w.notMem_text.2]
      rfl
    · intro resolve
      rw [mergeParams, run_bind_of_ok (EStateM.run_get c)]
      simp only [hbook.search_eq hsome]
      -- A single reference takes the value itself, any other wording the round; for texts both are
      -- the same.
      split
      · rename_i hwhole
        obtain ⟨hbefore, -, hafter⟩ := hwhole
        rw [List.isEmpty_iff.1 hbefore, List.isEmpty_iff.1 hafter] at hsome
        rw [mapTexts, hbook.text_of_whole hsome]
      · rw [hbook.mergeAll_text]
        rfl

end Book

/-! ## Resolution -/

/-- A text without tokens is only merged. -/
lemma resolveText_of_notMem (handler : Request → Resolution Value) (left : Nat) {t : Text}
    (ht : '$' ∉ t) :
    resolveText handler left {} t = mergeParams (nextRound handler left) t :=
  resolveText_of_noStart handler left fun h => ht (h.subset (List.mem_singleton_self _))

/-- A text without tokens in which nothing is bound is through with its first round. -/
lemma run_resolveText_of_none (handler : Request → Resolution Value) (left : Nat) {c : Context}
    {t : Text} (ht : '$' ∉ t) (h : firstBound? c.scopes.templateParams t = none) :
    (resolveText handler left {} t).run c = .ok (.str t) c := by
  rw [resolveText_of_notMem handler left ht, run_mergeParams_of_none h]

/-- Taking out the escape marks of a result that has none is the end of a resolution. -/
lemma run_restore_of_ok {x : Resolution Value} {c c' : Context} {t : Text}
    (h : x.run c = .ok (.str t) c') (ht : escapeMark ∉ t) :
    (restore <$> x).run c = .ok (.str t) c' := by
  rw [map_eq_pure_bind, run_bind_of_ok h, restore, restoreText_of_notMem ht, EStateM.run_pure]

section Resolve

variable {book : Book} {c : Context} (hbook : book.Describes c.scopes.templateParams)

include hbook

/-- With `n` merges left a resolution comes to what `n` rounds come to. -/
lemma Book.Describes.run_resolveText (handler : Request → Resolution Value) (n : ℕ) (w : Wording) :
    (book.Settled (book.round^[n] w) →
      (resolveText handler n {} w.text).run c =
        .ok (.str (Wording.text (book.round^[n] w))) c) ∧
    (¬ book.Settled (book.round^[n] w) →
      (resolveText handler n {} w.text).run c =
        .error (.resolution (.unsettled (Wording.text (book.round^[n] w)) c.mergeLimit)) c) := by
  -- By induction on the merges that are left, each of which is a round of the wording.
  induction n generalizing w with
  | zero =>
    rw [resolveText_of_notMem handler 0 w.notMem_text.1]
    exact ⟨fun hw => run_mergeParams_of_none (hbook.firstBound?_of_settled hw) _,
      fun hw => (hbook.run_mergeParams_of_not_settled hw).1⟩
  | succ n ih =>
    rw [resolveText_of_notMem handler (n + 1) w.notMem_text.1]
    by_cases hw : book.Settled w
    · rw [Function.iterate_fixed hw.round_eq]
      exact ⟨fun _ => run_mergeParams_of_none (hbook.firstBound?_of_settled hw) _,
        fun h => absurd hw h⟩
    · rw [Function.iterate_succ_apply, nextRound,
        (hbook.run_mergeParams_of_not_settled hw).2]
      exact ih (book.round w)

/-- **Merging expands wordings, exactly as deep as the context allows.**  Let a book describe the
template parameters, as one does if their values are wordings (`Book.exists_describes`).  A wording
whose depth is within the allowed merges resolves to its expansion, and the context stays as it is.
A wording of a greater depth is a failure, which shows what the allowed merges have come to; and so
it is, whatever the limit, where references lead in a circle. -/
theorem run_resolveValue_wording (w : Wording) :
    (book.depth w ≤ c.mergesAllowed →
      ∃ t, book.Expands w t ∧ (resolveValue (.str w.text)).run c = .ok (.str t) c) ∧
    (c.mergesAllowed < book.depth w →
      (resolveValue (.str w.text)).run c =
        .error (.resolution (.unsettled (Wording.text (book.round^[c.mergesAllowed] w))
          c.mergeLimit)) c) ∧
    ∀ v, Relation.ReflTransGen book.Refers w v → Relation.TransGen book.Refers v v →
      ∃ fault, (resolveValue (.str w.text)).run c = .error (.resolution fault) c := by
  have hrun : (resolveValue (.str w.text)).run c =
      (resolveText (handlerOf c) c.mergesAllowed {} w.text >>= fun v => pure (restore v)).run c :=
    rfl
  have hdeep : c.mergesAllowed < book.depth w →
      (resolveValue (.str w.text)).run c =
        .error (.resolution (.unsettled (Wording.text (book.round^[c.mergesAllowed] w))
          c.mergeLimit)) c := by
    intro hdepth
    -- The depth is the number of rounds that it takes to settle the wording, so fewer do not.
    have hleft : ¬ book.Settled (book.round^[c.mergesAllowed] w) :=
      fun h => not_le_of_gt hdepth (Book.depth_le_iff_settled.2 h)
    rw [hrun, EStateM.run_bind, (hbook.run_resolveText _ _ w).2 hleft]
  refine ⟨fun hdepth => ?_, hdeep, fun v hv hcircle => ?_⟩
  · have hsettled := Book.depth_le_iff_settled.1 hdepth
    refine ⟨_, hsettled.expands_iterate, ?_⟩
    rw [hrun, run_bind_of_ok ((hbook.run_resolveText _ _ w).1 hsettled), restore,
      restoreText_of_notMem (Wording.notMem_text _).2, EStateM.run_pure]
  · refine ⟨_, hdeep ?_⟩
    rw [Book.depth_eq_top hv hcircle]
    exact ENat.natCast_lt_top _

end Resolve

/-- Three parameters: `a` refers to `b`, which refers to nothing, and `o` refers to itself. -/
def circularBook : Book := fun name =>
  if name.text = ['a'] then
    some [.literal ['x'] (by decide), .reference ⟨['b'], by decide, by decide⟩]
  else if name.text = ['b'] then some [.literal ['y'] (by decide)]
  else if name.text = ['o'] then some [.reference ⟨['o'], by decide, by decide⟩]
  else none

/-- A context with these parameters in which two merges are allowed. -/
def circularContext : Context where
  scopes :=
    { templateParams :=
        [(.str ['a'], .str "x#\x7bb\x7d".toList), (.str ['b'], .str ['y']),
         (.str ['o'], .str "#\x7bo\x7d".toList)] }
  mergeLimit := 2

/-- A wording with a reference to `a` and one to a parameter that is not bound. -/
def nestedWording : Wording :=
  [.literal ['<'] (by decide), .reference ⟨['a'], by decide, by decide⟩,
   .reference ⟨['z'], by decide, by decide⟩, .literal ['>'] (by decide)]

/-- A wording with a reference that leads back to itself. -/
def circularWording : Wording := [.reference ⟨['o'], by decide, by decide⟩]

lemma circularBook_describes : circularBook.Describes circularContext.scopes.templateParams := by
  intro name
  by_cases ha : name.text = ['a']
  · rw [circularBook, if_pos ha, ha]
    rfl
  by_cases hb : name.text = ['b']
  · rw [circularBook, if_neg ha, if_pos hb, hb]
    rfl
  by_cases ho : name.text = ['o']
  · rw [circularBook, if_neg ha, if_neg hb, if_pos ho, ho]
    rfl
  · rw [circularBook, if_neg ha, if_neg hb, if_neg ho]
    simp [circularContext, Entries.find?, Value.isNamed, Ne.symm ha, Ne.symm hb, Ne.symm ho]

/-- The limit is met exactly by one wording, and is of no use to the other. -/
theorem run_resolveValue_wording_circular :
    circularBook.Describes circularContext.scopes.templateParams ∧
      circularBook.depth nestedWording ≤ circularContext.mergesAllowed ∧
      (resolveValue (.str "<#\x7ba\x7d#\x7bz\x7d>".toList)).run circularContext =
        .ok (.str "<xy#\x7bz\x7d>".toList) circularContext ∧
      Relation.TransGen circularBook.Refers circularWording circularWording ∧
      ∃ fault, (resolveValue (.str "#\x7bo\x7d".toList)).run circularContext =
        .error (.resolution fault) circularContext := by
  have hsettled : circularBook.Settled (circularBook.round^[2] nestedWording) := by
    have hround : circularBook.round^[2] nestedWording =
        [.literal ['<'] (by decide), .literal ['x'] (by decide), .literal ['y'] (by decide),
         .reference ⟨['z'], by decide, by decide⟩, .literal ['>'] (by decide)] := rfl
    rw [hround]
    intro name hname
    obtain rfl : name = ⟨['z'], by decide, by decide⟩ := by simpa using hname
    rfl
  have hdepth : circularBook.depth nestedWording ≤ circularContext.mergesAllowed :=
    Book.depth_le_iff_settled.2 hsettled
  have hcircle : Relation.TransGen circularBook.Refers circularWording circularWording :=
    .single ⟨_, List.mem_singleton_self _, rfl⟩
  refine ⟨circularBook_describes, hdepth, ?_, hcircle, ?_⟩
  · obtain ⟨t, ht, hrun⟩ :=
      (run_resolveValue_wording circularBook_describes nestedWording).1 hdepth
    rw [← hsettled.expands_iterate.unique ht] at hrun
    exact hrun
  · exact (run_resolveValue_wording circularBook_describes circularWording).2.2 _ .refl hcircle

end Stencil.Template
