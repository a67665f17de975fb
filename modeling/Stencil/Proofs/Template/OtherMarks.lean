import Stencil.Proofs.Template.Default
import Stencil.Proofs.Template.Row

/-!
# Marks that a host chooses

A host may have the tokens of a text marked by something other than `$`.  Its marks hold for one
round only: what parameters have been merged into is searched for tokens with the usual marks.  So a
token with the usual marks, which is plain text for this host, is left as it is if no parameter is
merged into the text, and is substituted if one is.

The texts here have no start mark of the host's, and refer to parameters by references that are
nothing but names; `Sheet` gives such a text by its references and what stands between them.  The
first round finds no token, so the host's marks are not in the picture any more
(`resolveVariables_of_noStart`).  What merging makes of a sheet, by induction along it, is what the
next round is given (`Sheet.IsBound.run_mergeParams`).  `run_resolveVariables_otherMarks` puts the
two together, and `run_resolveVariables_otherMarks_lost` is a token that the host wanted kept.
-/

namespace Stencil.Template

/-! ## Sheets -/

/-- What stands between the braces of a reference: a name that only the closing brace ends, without
a default.  Blanks around it are no part of the name. -/
structure Slot where
  inner : Text
  ne_nil : inner ≠ []
  ends_none : ∀ c ∈ inner, endsName c = false
  no_default : ',' ∉ inner

namespace Slot

/-- The reference. -/
def text (slot : Slot) : Text := '#' :: '{' :: (slot.inner ++ ['}'])

/-- The parameter that is referred to. -/
def value (params : Entries) (slot : Slot) : Value := Entries.get params (Text.trim slot.inner)

/-- The parameter's text, or the reference where it has none. -/
def filled (params : Entries) (slot : Slot) : Text :=
  if (slot.value params).isSome then (slot.value params).text else slot.text

end Slot

/-- A text that has no reference: what begins like one breaks off before its name comes to an
end. -/
def Slotless (t : Text) : Prop :=
  ∀ u v, t = u ++ '#' :: '{' :: v → v.length < 2 ∨ ∀ c ∈ v, endsName c = false

/-- A text whose references are nothing but names. -/
inductive Sheet where
  | tail (t : Text) (slotless : Slotless t)
  | cons (t : Text) (plain : ¬ ['#', '{'] <:+: t) (slot : Slot) (rest : Sheet)

namespace Sheet

/-- The text. -/
def text : Sheet → Text
  | .tail t _ => t
  | .cons t _ slot rest => t ++ (slot.text ++ rest.text)

/-- The references. -/
def slots : Sheet → List Slot
  | .tail _ _ => []
  | .cons _ _ slot rest => slot :: rest.slots

/-- Whether there is a parameter for one of the references. -/
def IsBound (params : Entries) (sheet : Sheet) : Prop :=
  ∃ slot ∈ sheet.slots, (slot.value params).isSome = true

/-- The text with the parameters put for their references. -/
def filled (params : Entries) : Sheet → Text
  | .tail t _ => t
  | .cons t _ slot rest => t ++ (slot.filled params ++ rest.filled params)

/-- What becomes of a sheet: the value of the parameter if a reference is all that there is, and the
filled text otherwise. -/
def merged (params : Entries) : Sheet → Value
  | .tail t _ => .str t
  | .cons t plain slot rest =>
    if t = [] ∧ rest.text = [] then slot.value params
    else .str ((Sheet.cons t plain slot rest).filled params)

end Sheet

/-! ## The search for references -/

/-- A text without an opening is cut at the one behind it, though it may end in `#`. -/
lemma cut?_opening {s : Text} (hs : ¬ ['#', '{'] <:+: s) (t : Text) :
    Text.cut? ['#', '{'] (s ++ '#' :: '{' :: t) = some (s, t) := by
  induction s with
  | nil => simp [Text.cut?, List.isPrefixOf]
  | cons c s ih =>
    have hrest : ¬ ['#', '{'] <:+: s := fun h => hs (h.trans (List.suffix_cons c s).isInfix)
    -- An opening here would be one in the text in front, or would have to share its `#` with the
    -- next.
    have hprefix : ¬ ['#', '{'] <+: c :: (s ++ '#' :: '{' :: t) := by
      intro h
      obtain ⟨rfl, htail⟩ := List.cons_prefix_cons.1 h
      cases s with
      | nil => simp at htail
      | cons d s =>
        obtain ⟨rfl, -⟩ := List.cons_prefix_cons.1 htail
        exact hs (List.prefix_append ['#', '{'] s).isInfix
    rw [List.cons_append, Text.cut?, if_neg (by rwa [List.isPrefixOf_iff_prefix]), ih hrest]
    rfl

section Search

variable {s t : Text}

/-- The first reference is found behind a text without an opening. -/
lemma expression?_append (hs : ¬ ['#', '{'] <:+: s) (slot : Slot) (t : Text) :
    expression? (s ++ (slot.text ++ t)) = some (s, slot.inner, '}', t) := by
  have htext : s ++ (slot.text ++ t) = s ++ '#' :: '{' :: (slot.inner ++ '}' :: t) := by
    simp [Slot.text]
  have hlength : 2 ≤ (slot.inner ++ '}' :: t).length := by
    have := List.length_pos_iff.2 slot.ne_nil
    rw [List.length_append, List.length_cons]
    omega
  have hcut : cutOpening? (s ++ (slot.text ++ t)) = some (s, slot.inner ++ '}' :: t) := by
    rw [cutOpening?, htext, cut?_opening hs]
    exact if_pos hlength
  have hname : splitName (slot.inner ++ '}' :: t) = some (slot.inner, '}', t) :=
    splitName_append slot.ends_none (by decide) t
  simp only [expression?, hcut, Option.bind_some, hname, Option.map_some]

lemma Slotless.expression?_eq_none (ht : Slotless t) : expression? t = none := by
  rw [expression?]
  cases hcut : Text.cut? ['#', '{'] t with
  | none => rw [cutOpening?, hcut, Option.bind_none]
  | some cut =>
    obtain ⟨before, inner⟩ := cut
    have htext := Text.append_of_cut? hcut
    rw [List.append_assoc] at htext
    rw [cutOpening?, hcut]
    rcases ht before inner htext.symm with hshort | hname
    · simp [hshort]
    · have hdrop : inner.dropWhile (!endsName ·) = [] := by
        rw [List.dropWhile_eq_nil_iff]
        intro c hc
        rw [hname c hc]
        rfl
      have hsplit : splitName inner = none := by rw [splitName, hdrop]
      by_cases hlength : 2 ≤ inner.length <;> simp [hlength, hsplit]

lemma Slotless.firstBound?_eq_none (ht : Slotless t) (params : Entries) :
    firstBound? params t = none := by
  rw [firstBound?_eq_bind, ht.expression?_eq_none, Option.bind_none]

lemma slotless_of_notMem (ht : '#' ∉ t) : Slotless t := by
  rintro u v rfl
  simp at ht

lemma Slot.value_eq (slot : Slot) (params : Entries) :
    lookUpParam params (Text.trim slot.inner) = slot.value params := by
  have hcomma : ',' ∉ Text.trim slot.inner := fun h => slot.no_default (Text.trim_subset _ h)
  rw [lookUpParam_of_notMem params hcomma, Text.trim_trim, Slot.value]

/-- The search at a reference. -/
lemma Slot.firstBound?_append (slot : Slot) (params : Entries) (hs : ¬ ['#', '{'] <:+: s)
    (t : Text) :
    firstBound? params (s ++ (slot.text ++ t)) =
      if (slot.value params).isSome then
        some { before := s, value := slot.value params, ending := '}', after := t }
      else (firstBound? params t).map fun b =>
        { b with before := s ++ (slot.text ++ b.before) } := by
  rw [firstBound?_eq_bind, expression?_append hs]
  simp [slot.value_eq, Slot.text]

end Search

/-! ## What merging makes of a sheet -/

section Merging

variable {params : Entries} {t : Text} {sheet : Sheet}

lemma Sheet.isBound_cons {plain : ¬ ['#', '{'] <:+: t} {slot : Slot} {rest : Sheet} :
    Sheet.IsBound params (.cons t plain slot rest) ↔
      (slot.value params).isSome = true ∨ rest.IsBound params := by
  simp [Sheet.IsBound, Sheet.slots]

/-- Nothing is found in a sheet that no parameter is bound for. -/
lemma Sheet.firstBound?_eq_none (h : ¬ sheet.IsBound params) :
    firstBound? params sheet.text = none := by
  induction sheet with
  | tail t slotless => exact slotless.firstBound?_eq_none params
  | cons t plain slot rest ih =>
    obtain ⟨hslot, hrest⟩ := not_or.1 (mt Sheet.isBound_cons.2 h)
    rw [Sheet.text, slot.firstBound?_append params plain, if_neg hslot, ih hrest, Option.map_none]

lemma Sheet.exists_firstBound? (h : sheet.IsBound params) :
    ∃ b, firstBound? params sheet.text = some b := by
  induction sheet with
  | tail t slotless => simp [Sheet.IsBound, Sheet.slots] at h
  | cons t plain slot rest ih =>
    rw [Sheet.text, slot.firstBound?_append params plain]
    by_cases hslot : (slot.value params).isSome = true
    · exact ⟨_, if_pos hslot⟩
    · obtain ⟨b, hb⟩ := ih ((Sheet.isBound_cons.1 h).resolve_left hslot)
      rw [if_neg hslot, hb]
      exact ⟨_, rfl⟩

/-- Merging fills a sheet. -/
lemma Sheet.mergeAll_text (sheet : Sheet) (params : Entries) (done : Text) :
    mergeAll params done sheet.text =
      { stages := [], text? := some (done ++ sheet.filled params) } := by
  induction sheet generalizing done with
  | tail t slotless => exact mergeAll_of_none (slotless.firstBound?_eq_none params)
  | cons t plain slot rest ih =>
    have hfound := slot.firstBound?_append params plain rest.text
    by_cases hslot : (slot.value params).isSome = true
    · rw [if_pos hslot] at hfound
      rw [Sheet.text, mergeAll_of_closing hfound rfl, ih]
      simp [Sheet.filled, Slot.filled, hslot]
    · rw [if_neg hslot] at hfound
      have hskip : firstBound? params (t ++ slot.text ++ rest.text) =
          (firstBound? params rest.text).map fun b =>
            { b with before := t ++ slot.text ++ b.before } := by
        simpa using hfound
      rw [Sheet.text, ← List.append_assoc, mergeAll_skip hskip, ih]
      simp [Sheet.filled, Slot.filled, hslot]

end Merging

/-! ## The first round -/

/-- A text without the start mark is only merged, whatever the other marks are. -/
lemma resolveVariables_of_noStart {d : Delimiters} {t : Text} (h : ¬ d.start <:+: t) :
    resolveVariables d t = replaceParams t := by
  funext c
  change (resolveVariables d t).run c = (replaceParams t).run c
  rw [run_resolveVariables, run_replaceParams, resolveText_of_noStart _ _ h]

section Round

variable {c : Context} {t u : Text} {b : Bound} {sheet : Sheet}

/-- A text that values are put into goes on to the next round as a whole. -/
lemma run_mergeParams_of_closing (hparams : c.scopes.templateParams ≠ [])
    (hb : firstBound? c.scopes.templateParams t = some b)
    (hwhole : ¬ (b.before = [] ∧ b.after = []))
    (hmerged : mergeAll c.scopes.templateParams [] t = { stages := [], text? := some u })
    (resolve : Text → Resolution Value) :
    (mergeParams (some resolve) t).run c = (resolve u).run c := by
  have hpart : ¬ (b.before = [] ∧ b.ending = '}' ∧ b.after = []) := fun h => hwhole ⟨h.1, h.2.2⟩
  rw [mergeParams, run_bind_of_ok (EStateM.run_get c)]
  simp only [List.isEmpty_iff, hparams, if_false, hb, hpart, hmerged]
  rfl

/-- It is a failure if a parameter is to be merged and no merge is left. -/
lemma run_mergeParams_unsettled (hparams : c.scopes.templateParams ≠ [])
    (hb : firstBound? c.scopes.templateParams t = some b) :
    (mergeParams none t).run c =
      .error (.resolution (.unsettled (restoreText t) c.mergeLimit)) c := by
  rw [mergeParams, run_bind_of_ok (EStateM.run_get c)]
  simp only [List.isEmpty_iff, hparams, if_false, hb]
  rfl

lemma Sheet.IsBound.params_ne_nil {params : Entries} (h : sheet.IsBound params) : params ≠ [] := by
  rintro rfl
  obtain ⟨slot, -, hvalue⟩ := h
  cases hvalue

/-- The next round is given what becomes of the sheet. -/
lemma Sheet.IsBound.run_mergeParams (h : sheet.IsBound c.scopes.templateParams)
    (resolve : Text → Resolution Value) :
    (mergeParams (some resolve) sheet.text).run c =
      (mapTexts resolve (sheet.merged c.scopes.templateParams)).run c := by
  have hparams := h.params_ne_nil
  have hmerged := sheet.mergeAll_text c.scopes.templateParams []
  cases sheet with
  | tail t slotless => simp [Sheet.IsBound, Sheet.slots] at h
  | cons t plain slot rest =>
    have hfound := slot.firstBound?_append c.scopes.templateParams plain rest.text
    by_cases hslot : (slot.value c.scopes.templateParams).isSome = true
    · rw [if_pos hslot] at hfound
      -- Only a reference that is the whole sheet hands on its value; in any other sheet texts are
      -- merged.
      by_cases hwhole : t = [] ∧ rest.text = []
      · obtain ⟨rfl, hrest⟩ := hwhole
        rw [hrest] at hfound
        rw [Sheet.merged, if_pos ⟨rfl, hrest⟩, Sheet.text, hrest]
        exact run_mergeParams_of_whole hparams hfound resolve
      · rw [Sheet.merged, if_neg hwhole, mapTexts]
        exact run_mergeParams_of_closing hparams hfound hwhole hmerged resolve
    · obtain ⟨b, hb⟩ := rest.exists_firstBound? ((Sheet.isBound_cons.1 h).resolve_left hslot)
      rw [if_neg hslot, hb, Option.map_some] at hfound
      have hwhole : ¬ (t = [] ∧ rest.text = []) := by
        rintro ⟨-, hrest⟩
        rw [hrest, firstBound?_nil] at hb
        cases hb
      rw [Sheet.merged, if_neg hwhole, mapTexts]
      exact run_mergeParams_of_closing hparams hfound (by simp [Slot.text]) hmerged resolve

end Round

/-! ## Resolution -/

/-- **A host's marks hold for one round.**  Let the text of a sheet have no start mark of the
host's; the tokens with the usual marks that may be in it are plain text then.  The text comes back,
apart from escape marks, if no parameter is bound that it refers to.  If one is, and a merge is
allowed, the result is that of resolving what becomes of the sheet, and now the tokens with the
usual marks are substituted. -/
theorem run_resolveVariables_otherMarks (c : Context) (d : Delimiters) (sheet : Sheet)
    (hd : ¬ d.start <:+: sheet.text) :
    (¬ sheet.IsBound c.scopes.templateParams →
      (resolveVariables d sheet.text).run c = .ok (.str (restoreText sheet.text)) c) ∧
    (sheet.IsBound c.scopes.templateParams →
      (c.mergesAllowed = 0 → (resolveVariables d sheet.text).run c =
        .error (.resolution (.unsettled (restoreText sheet.text) c.mergeLimit)) c) ∧
      ∀ left, c.mergesAllowed = left + 1 → (resolveVariables d sheet.text).run c =
        (restore <$> mapTexts (resolveText (handlerOf c) left {})
          (sheet.merged c.scopes.templateParams)).run c) := by
  -- Without a start mark of the host's the scan has nothing to do, and merging is all there is.
  rw [resolveVariables_of_noStart hd]
  refine ⟨fun hbound => run_replaceParams_of_none (sheet.firstBound?_eq_none hbound),
    fun hbound => ⟨fun hleft => ?_, fun left hleft => ?_⟩⟩
  · obtain ⟨b, hb⟩ := sheet.exists_firstBound? hbound
    have hround := run_mergeParams_unsettled hbound.params_ne_nil hb
    rw [run_replaceParams, hleft, nextRound, map_eq_pure_bind, EStateM.run_bind, hround]
  · rw [run_replaceParams, hleft, nextRound]
    exact run_map_congr restore (hbound.run_mergeParams _)

/-- The usual marks, but for `@` to start with. -/
def atMarks : Delimiters := { start := ['@'] }

/-- A context with an attribute and a parameter. -/
def hostContext : Context where
  scopes :=
    { attributes := [(.str ['x'], .str ['a'])], templateParams := [(.str ['p'], .str ['v'])] }

/-- A token with the usual marks, and a reference behind it. -/
def hostSheet (slot : Slot) : Sheet :=
  .cons "$attribute\x7bx\x7d ".toList (by decide) slot
    (.tail [] (slotless_of_notMem List.not_mem_nil))

/-- The sheet with a reference to the parameter. -/
def boundSheet : Sheet := hostSheet ⟨['p'], by decide, by simp [endsName, nameEnds], by decide⟩

/-- The sheet with a reference to another name. -/
def unboundSheet : Sheet := hostSheet ⟨['q'], by decide, by simp [endsName, nameEnds], by decide⟩

lemma boundSheet_isBound : boundSheet.IsBound hostContext.scopes.templateParams :=
  ⟨_, List.mem_singleton_self _, rfl⟩

/-- What becomes of the sheet. -/
def filledRow : Row := [.token "attribute".toList ['x'], .literal " v".toList]

lemma run_resolveText_filled (left : Nat) :
    (resolveText (handlerOf hostContext) left {} "$attribute\x7bx\x7d v".toList).run
      hostContext = .ok (.str "a v".toList) hostContext := by
  have hrow : ∀ p ∈ filledRow, p.Fits hostContext.sources attributeSource := by
    simp only [filledRow, List.forall_mem_cons]
    exact ⟨⟨rfl, by decide, by decide⟩, ⟨by simp, by decide⟩, by simp⟩
  have hscan : (sweep (handlerOf hostContext) {} filledRow.text.reverse []).run hostContext =
      .ok (.str "a v".toList) hostContext := Row.run_sweep_whole hrow
  calc (resolveText (handlerOf hostContext) left {} filledRow.text).run hostContext
      = (sweep (handlerOf hostContext) {} filledRow.text.reverse [] >>=
          settle (nextRound (handlerOf hostContext) left)).run hostContext := by
        rw [← Marks.delimiters_standard, resolveText_eq]
    _ = .ok (.str "a v".toList) hostContext := by
        rw [run_bind_of_ok hscan]
        exact run_mergeParams_of_noOpening _ (by decide) _

/-- The token is kept where nothing is merged, and otherwise the next round is given it. -/
theorem run_resolveVariables_otherMarks_mixed :
    ¬ atMarks.start <:+: unboundSheet.text ∧ ¬ atMarks.start <:+: boundSheet.text ∧
      ¬ unboundSheet.IsBound hostContext.scopes.templateParams ∧
      boundSheet.IsBound hostContext.scopes.templateParams ∧
      hostContext.mergesAllowed = 31 + 1 ∧
      (resolveVariables atMarks "$attribute\x7bx\x7d #\x7bq\x7d".toList).run hostContext =
        .ok (.str "$attribute\x7bx\x7d #\x7bq\x7d".toList) hostContext ∧
      (resolveVariables atMarks "$attribute\x7bx\x7d #\x7bp\x7d".toList).run hostContext =
        (restore <$> resolveText (handlerOf hostContext) 31 {}
          "$attribute\x7bx\x7d v".toList).run hostContext := by
  have hunbound : ¬ unboundSheet.IsBound hostContext.scopes.templateParams := by
    rintro ⟨slot, hslot, hvalue⟩
    obtain rfl := List.mem_singleton.1 hslot
    cases hvalue
  have hkept := run_resolveVariables_otherMarks hostContext atMarks unboundSheet (by decide)
  have hmerged := run_resolveVariables_otherMarks hostContext atMarks boundSheet (by decide)
  exact ⟨by decide, by decide, hunbound, boundSheet_isBound, rfl, hkept.1 hunbound,
    (hmerged.2 boundSheet_isBound).2 31 rfl⟩

/-- A token that is plain text for the host is substituted, because a parameter is merged behind
it. -/
theorem run_resolveVariables_otherMarks_lost :
    ¬ atMarks.start <:+: "$attribute\x7bx\x7d #\x7bp\x7d".toList ∧
      (resolveVariables atMarks "$attribute\x7bx\x7d #\x7bp\x7d".toList).run hostContext =
        .ok (.str "a v".toList) hostContext ∧
      "a v".toList ≠ "$attribute\x7bx\x7d v".toList := by
  have hstart : ¬ atMarks.start <:+: boundSheet.text := by decide
  refine ⟨hstart, ?_, by decide⟩
  have hround : (mergeParams (nextRound (handlerOf hostContext) hostContext.mergesAllowed)
      boundSheet.text).run hostContext = .ok (.str "a v".toList) hostContext :=
    (boundSheet_isBound.run_mergeParams _).trans (run_resolveText_filled 31)
  calc (resolveVariables atMarks boundSheet.text).run hostContext
      = (restore <$> mergeParams (nextRound (handlerOf hostContext) hostContext.mergesAllowed)
          boundSheet.text).run hostContext := by rw [resolveVariables_of_noStart hstart]; rfl
    _ = .ok (.str "a v".toList) hostContext := run_restore_of_ok hround (by decide)

end Stencil.Template
