import Stencil.Proofs.Template.Agreement
import Stencil.Proofs.Template.EscapedKey

/-!
# Rows of texts and tokens

A template may be a row of literal texts and tokens with plain keys.  The scan substitutes its
tokens from the last to the first.  When it gets to a token at the start of the template, it looks
whether anything is left behind the token; if not, the value is the result as it is, whatever its
kind.  But what is looked at is what the rest of the row has come to, and not how it was written:
where there are only tokens and the values of all others have empty texts, the value of the first
one is the result.  In all other cases the result is a text.

`Row.fill` is what the parts of a row come to, and `joined` the result that the scan makes of that.
The main statement is `run_resolveVariables_row`; `run_resolveVariables_row_lost` is a row of two
tokens that comes to a number.
-/

namespace Stencil.Template

/-! ## Rows -/

/-- A part of a template. -/
inductive Part where
  | literal (t : Text)
  | token (keyword key : Text)

namespace Part

/-- A part as it is written. -/
def text : Part → Text
  | .literal t => t
  | .token keyword key => tokenText keyword key

/-- Whether a part can be told from what is written, `source` giving the source of a type keyword: a
literal text is not empty and has no start mark, and a token has a keyword that is registered, and
neither in this nor in its key any marks. -/
def Fits (sources : SourceRegistry) (source : Text → Source) : Part → Prop
  | .literal t => t ≠ [] ∧ '$' ∉ t
  | .token keyword key =>
    sources.find? keyword = some (source keyword) ∧ ('$' ∉ keyword ∧ '{' ∉ keyword) ∧
      '$' ∉ key ∧ '{' ∉ key ∧ '}' ∉ key

end Part

/-- A template as a row of parts. -/
abbrev Row := List Part

/-- The texts of values, one after the other. -/
def textsOf (vs : List Value) : Text := vs.flatMap Value.text

/-- What the values of the parts of a template come to: the first one as it is if the others have
nothing but empty texts, and otherwise a text. -/
def joined : List Value → Value
  | [] => .str []
  | v :: vs => if (textsOf vs).isEmpty then v else .str (v.text ++ textsOf vs)

lemma joined_text (t : Text) (vs : List Value) :
    joined (.str t :: vs) = .str (t ++ textsOf vs) := by
  rw [joined]
  split
  · rename_i h
    rw [List.isEmpty_iff.1 h, List.append_nil]
  · rfl

namespace Row

/-- A row as it is written. -/
def text (row : Row) : Text := row.flatMap Part.text

/-- What becomes of a character in front of a row: a mark if it escapes a token. -/
def mark : Row → Char → Char
  | .token _ _ :: _, d => if isEscape d then escapeMark else d
  | _, d => d

/-- What becomes of a text in front of a row. -/
def before (row : Row) (t : Text) : Text := t.dropLast ++ (t.getLast?.map row.mark).toList

/-- The values of the parts of a row; those further right are found first.  A token behind an escape
is literal text, and `escaped` says whether the row stands behind one. -/
def fill (handler : Request → Resolution Value) (source : Text → Source) :
    (escaped : Bool) → Row → Resolution (List Value)
  | _, [] => pure []
  | _, .literal t :: row => do
    let vs ← fill handler source (t.getLast?.any isEscape) row
    return .str (before row t) :: vs
  | escaped, .token keyword key :: row => do
    let vs ← fill handler source false row
    if escaped then return .str (tokenText keyword key) :: vs
    else
      let v ← (source keyword key).run handler
      return v :: vs

lemma before_concat (row : Row) (t : Text) (d : Char) :
    row.before (t ++ [d]) = t ++ [row.mark d] := by
  simp [before]

end Row

/-! ## The registry -/

/-- Contexts have the given sources; sources and functions may do as they like. -/
def registered (sources : SourceRegistry) : Terms where
  kept c := c.sources = sources
  fails _ := True
  sourceAsks _ := True
  conditionAsks _ := True
  enter _ hc := hc
  assign _ _ _ hc := hc
  resolution _ := trivial
  source _ _ _ := .of_all (fun _ => trivial) (fun _ => trivial) _
  condition _ _ := .of_all (fun _ => trivial) (fun _ => trivial) _

lemma registered_answer (sources : SourceRegistry) (level : Nat) (q : Request) :
    AgreeOn (registered sources) (answer level q) (answer level q) := by
  have hnested : ∀ condition {x : Resolution Value}, AgreeOn (registered sources) x x →
      AgreeOn (registered sources) (nested condition x) (nested condition x) :=
    fun condition _ hx => .nested (U := registered sources) condition (fun _ hc => hc)
      (fun _ hc => hc) (fun _ he => he) fun _ _ _ => hx
  -- By induction on the levels of calls; no request changes the sources, and calls only make
  -- requests.
  induction level generalizing q with
  | zero =>
    exact .answerWith (fun _ => .throw trivial) fun condition _ => hnested condition (.throw trivial)
  | succ level ih =>
    refine .answerWith (.callBy (fun q _ => ih q) fun q _ => ih q) ?_
    rintro condition rfl
    exact hnested condition ((AgreeOn.checkBy (fun q _ => ih q) _).map _)

/-- Filling a row leaves the sources as they are. -/
lemma Row.sources_of_fill (source : Text → Source) {level : Nat} {escaped : Bool} {row : Row}
    {c c' : Context} {vs : List Value}
    (h : (row.fill (answer level) source escaped).run c = .ok vs c') : c'.sources = c.sources := by
  have hfill : AgreeOn (registered c.sources) (row.fill (answer level) source escaped)
      (row.fill (answer level) source escaped) := by
    clear h
    induction row generalizing escaped with
    | nil => exact .pure []
    | cons p row ih =>
      cases p with
      | literal t => exact ih.bind fun vs => .pure _
      | token keyword key =>
        refine ih.bind fun vs => ?_
        cases escaped with
        | true => exact .pure _
        | false =>
          have hscript : (source keyword key).Behaves (fun _ => True) (fun _ => True)
            fun _ => True := .of_all (fun _ => trivial) (fun _ => trivial) _
          exact (AgreeOn.script (fun q _ => registered_answer c.sources level q) hscript).bind
            fun v => .pure _
  have hend := (hfill c rfl).2
  rwa [h] at hend

/-! ## The scan -/

/-- The scan of a token gets to its start mark. -/
lemma sweep_plainToken (handler : Request → Resolution Value) {keyword key : Text}
    (hkeyword : '$' ∉ keyword) (hkey : '$' ∉ key) (left right : Text) :
    sweep handler {} ((tokenText keyword key).reverse ++ left) right =
      substitute handler {} left (tokenText keyword key ++ right) := by
  have hsweep := sweep_tokenText handler hkeyword key left right
  rwa [escapeStarts, putBeforeStarts_of_notMem _ hkey, putBeforeStarts_of_notMem _ hkey] at hsweep

lemma tokenText_append (keyword key right : Text) :
    tokenText keyword key ++ right = '$' :: (keyword ++ '{' :: (key ++ '}' :: right)) := by
  simp [tokenText]

lemma reverse_tokenText (keyword key : Text) :
    (tokenText keyword key).reverse = '}' :: ('$' :: (keyword ++ '{' :: key)).reverse := by
  simp [tokenText]

lemma notMem_mark {row : Row} {d : Char} (hd : '$' ≠ d) : '$' ≠ row.mark d := by
  unfold Row.mark
  split
  · split
    · decide
    · exact hd
  · exact hd

lemma mark_of_not_isEscape {row : Row} {d : Char} (hd : isEscape d = false) : row.mark d = d := by
  unfold Row.mark
  split
  · rw [if_neg (by simp [hd])]
  · rfl

/-- A token behind an escape is passed over, and the escape is marked. -/
lemma substitute_escaped (handler : Request → Resolution Value) {d : Char} (hd : isEscape d = true)
    (left keyword key right : Text) :
    substitute handler {} (d :: left) (tokenText keyword key ++ right) =
      sweep handler {} (escapeMark :: left) (tokenText keyword key ++ right) := by
  simp [substitute, sweep, tokenText, hd]

section Scan

variable {source : Text → Source} {level : Nat} {β : Type} {k : Value → Resolution β}

section Behind

variable {row : Row} {c : Context} {right : Text}
  (hrow : ∀ (d : Char) (left : Text),
    (sweep (answer level) {} (row.text.reverse ++ d :: left) right >>= k).run c =
      (row.fill (answer level) source (isEscape d) >>= fun vs =>
        sweep (answer level) {} (row.mark d :: left) (textsOf vs ++ right) >>= k).run c)

include hrow

/-- If the scan goes over a row, it goes over the row with a literal text before it. -/
lemma run_sweep_literal {t : Text} (ht : t ≠ []) (hstart : '$' ∉ t) (left : Text) :
    (sweep (answer level) {} ((Row.text (.literal t :: row)).reverse ++ left) right >>= k).run c =
      (row.fill (answer level) source (t.getLast?.any isEscape) >>= fun vs =>
        sweep (answer level) {} left (row.before t ++ (textsOf vs ++ right)) >>= k).run c := by
  -- The last character decides on whether the token behind it is escaped, and is replaced by a mark
  -- if so.
  obtain ⟨s, e, rfl⟩ := (List.eq_nil_or_concat' t).resolve_left ht
  have hmarked : '$' ∉ row.before (s ++ [e]) := by
    obtain ⟨hs, he⟩ : '$' ∉ s ∧ '$' ≠ e := by simpa using hstart
    simpa [Row.before_concat, hs] using notMem_mark he
  have hskip : ∀ u, sweep (answer level) {} (row.mark e :: (s.reverse ++ left)) u =
      sweep (answer level) {} left (row.before (s ++ [e]) ++ u) := by
    intro u
    rw [← Marks.delimiters_standard, ← sweep_literal (answer level) Marks.standard hmarked]
    simp [Row.before_concat]
  have hscan := hrow e (s.reverse ++ left)
  simp only [hskip] at hscan
  simpa [Row.text, Part.text] using hscan

/-- If the scan goes over a row, it gets to the start mark of a token before the row. -/
lemma run_sweep_token {keyword key : Text} (hkeyword : '$' ∉ keyword) (hkey : '$' ∉ key)
    (left : Text) :
    (sweep (answer level) {} ((Row.text (.token keyword key :: row)).reverse ++ left) right >>=
        k).run c =
      (row.fill (answer level) source false >>= fun vs =>
        substitute (answer level) {} left (tokenText keyword key ++ (textsOf vs ++ right)) >>=
          k).run c := by
  have hplain : isEscape '}' = false := by decide
  have hscan := hrow '}' (('$' :: (keyword ++ '{' :: key)).reverse ++ left)
  rw [mark_of_not_isEscape hplain, hplain, ← List.cons_append, ← reverse_tokenText] at hscan
  simp only [sweep_plainToken _ hkeyword hkey] at hscan
  simpa [Row.text, Part.text, List.append_assoc] using hscan

end Behind

/-- The scan goes over a row that something stands before as over the texts of its values.  The
character in front of the row is `d`. -/
lemma Row.run_sweep {row : Row} {c : Context} (hrow : ∀ p ∈ row, p.Fits c.sources source)
    (right : Text) (d : Char) (left : Text) :
    (sweep (answer level) {} (row.text.reverse ++ d :: left) right >>= k).run c =
      (row.fill (answer level) source (isEscape d) >>= fun vs =>
        sweep (answer level) {} (row.mark d :: left) (textsOf vs ++ right) >>= k).run c := by
  -- The induction goes along the row; what is right of the first part is filled when it is met.
  induction row generalizing d left with
  | nil => rfl
  | cons p row ih =>
    obtain ⟨hp, hrest⟩ := List.forall_mem_cons.1 hrow
    cases p with
    | literal t =>
      rw [run_sweep_literal (ih hrest) hp.1 hp.2]
      simp [Row.fill, Row.mark, textsOf]
    | token keyword key =>
      obtain ⟨hsource, ⟨hkeyword, hopening⟩, hkey, hkeyOpening, hkeyClosing⟩ := hp
      rw [run_sweep_token (ih hrest) hkeyword hkey]
      cases hd : isEscape d with
      | true => simp [Row.fill, Row.mark, hd, textsOf, substitute_escaped]
      | false =>
        rw [mark_of_not_isEscape hd, Row.fill]
        simp only [bind_assoc, Bool.false_eq_true, if_false]
        apply run_bind_congr
        intro vs c' hvs
        have hfind : c'.sources.find? keyword = some (source keyword) := by
          rw [Row.sources_of_fill source hvs, hsource]
        have hleft : ∀ e ∈ (d :: left).head?, isEscape e = false := by simpa using hd
        have htoken : (substitute (answer level) {} (d :: left)
              (tokenText keyword key ++ (textsOf vs ++ right)) >>= k).run c' =
            ((source keyword key).run (answer level) >>= fun v =>
              sweep (answer level) {} (d :: left) (v.text ++ (textsOf vs ++ right)) >>=
                k).run c' := by
          rw [tokenText_append]
          exact substitute_token (answer level) Marks.standard hleft hfind hopening
            (balanced_of_notMem hkeyOpening hkeyClosing) (by simp)
        rw [htoken]
        simp [textsOf]

/-- The scan of a template that is a row joins the values of its parts. -/
lemma Row.run_sweep_whole {row : Row} {c : Context} (hrow : ∀ p ∈ row, p.Fits c.sources source) :
    (sweep (answer level) {} row.text.reverse []).run c =
      (joined <$> row.fill (answer level) source false).run c := by
  cases row with
  | nil => rfl
  | cons p row =>
    obtain ⟨hp, hrest⟩ := List.forall_mem_cons.1 hrow
    have hscan := @Row.run_sweep source level _ pure _ _ hrest []
    cases p with
    | literal t =>
      have hliteral := run_sweep_literal hscan hp.1 hp.2 []
      simp only [List.append_nil, bind_pure] at hliteral
      rw [hliteral]
      simp [sweep, Row.fill, joined_text]
    | token keyword key =>
      obtain ⟨hsource, ⟨hkeyword, hopening⟩, hkey, hkeyOpening, hkeyClosing⟩ := hp
      have htoken := run_sweep_token hscan hkeyword hkey []
      simp only [List.append_nil, bind_pure] at htoken
      rw [htoken, Row.fill, map_bind]
      apply run_bind_congr
      intro vs c' hvs
      have hfind : c'.sources.find? keyword = some (source keyword) := by
        rw [Row.sources_of_fill source hvs, hsource]
      have hbalanced := balanced_of_notMem hkeyOpening hkeyClosing
      -- Nothing stands in front of the first token, so its value is kept as it is if nothing comes
      -- behind it.
      have hfirst : (substitute (answer level) {} [] (tokenText keyword key ++ textsOf vs)).run c' =
          ((source keyword key).run (answer level) >>= fun v =>
            pure (if (textsOf vs).isEmpty then v else .str (v.text ++ textsOf vs))).run c' := by
        rw [tokenText_append]
        exact substitute_first (answer level) Marks.standard hfind hopening hbalanced
      rw [hfirst]
      simp [joined]

end Scan

/-! ## The result -/

section Result

variable {handler : Request → Resolution Value} {source : Text → Source} {escaped : Bool}
  {row : Row} {c c' : Context} {vs : List Value}

/-- The values of a row are those of its first part and those of the others, found before. -/
lemma Row.exists_of_fill_cons {p : Part}
    (h : (Row.fill handler source escaped (p :: row)).run c = .ok vs c') :
    ∃ v ws escaped' c₁, vs = v :: ws ∧ (row.fill handler source escaped').run c = .ok ws c₁ ∧
      ∀ t, p = .literal t → v = .str (row.before t) := by
  cases p with
  | literal t =>
    obtain ⟨ws, c₁, hrest, hvalue⟩ := exists_of_run_bind h
    obtain ⟨rfl, -⟩ : .str (row.before t) :: ws = vs ∧ c₁ = c' := by simpa using hvalue
    exact ⟨_, ws, _, c₁, rfl, hrest, by rintro _ ⟨⟩; rfl⟩
  | token keyword key =>
    obtain ⟨ws, c₁, hrest, hvalue⟩ := exists_of_run_bind h
    refine ⟨vs.headD .none, ws, false, c₁, ?_, hrest, by simp⟩
    cases escaped with
    | true =>
      obtain ⟨rfl, -⟩ : .str (tokenText keyword key) :: ws = vs ∧ c₁ = c' := by simpa using hvalue
      rfl
    | false =>
      obtain ⟨v, c₂, -, hv⟩ := exists_of_run_bind hvalue
      obtain ⟨rfl, -⟩ : v :: ws = vs ∧ c₂ = c' := by simpa using hv
      rfl

lemma Row.before_ne_nil {t : Text} (ht : t ≠ []) : row.before t ≠ [] := by
  obtain ⟨s, e, rfl⟩ := (List.eq_nil_or_concat' t).resolve_left ht
  simp [Row.before_concat]

/-- The value of a literal part is a text that is not empty. -/
lemma Row.exists_text_of_mem (h : (row.fill handler source escaped).run c = .ok vs c') {t : Text}
    (ht : t ≠ []) (hmem : .literal t ∈ row) : ∃ v ∈ vs, v.text ≠ [] := by
  induction row generalizing escaped c' vs with
  | nil => cases hmem
  | cons p row ih =>
    obtain ⟨v, ws, _, _, rfl, hrest, hliteral⟩ := Row.exists_of_fill_cons h
    rcases List.mem_cons.1 hmem with hp | hmem
    · refine ⟨v, List.mem_cons_self, ?_⟩
      rw [hliteral t hp.symm]
      exact Row.before_ne_nil ht
    · obtain ⟨w, hw, htext⟩ := ih hrest hmem
      exact ⟨w, List.mem_cons_of_mem v hw, htext⟩

/-- Values are joined to a text unless all but the first have empty texts. -/
lemma textsOf_tail_eq_nil (h : ∀ t, joined vs ≠ .str t) : ∀ v ∈ vs.tail, v.text = [] := by
  cases vs with
  | nil => simp
  | cons v ws =>
    rw [joined] at h
    split at h
    · rename_i hempty
      exact List.flatMap_eq_nil_iff.1 (List.isEmpty_iff.1 hempty)
    · exact absurd rfl (h _)

/-- A row comes to a text unless all of its parts are tokens. -/
lemma Row.literal_notMem_of_fill (hrow : ∀ t, .literal t ∈ row → t ≠ [])
    (h : (row.fill handler source escaped).run c = .ok vs c') (hvalue : ∀ t, joined vs ≠ .str t)
    (t : Text) : .literal t ∉ row := by
  intro hmem
  cases row with
  | nil => cases hmem
  | cons p row =>
    obtain ⟨v, ws, _, _, rfl, hrest, hliteral⟩ := Row.exists_of_fill_cons h
    rcases List.mem_cons.1 hmem with hp | hmem
    · rw [hliteral t hp.symm, joined_text] at hvalue
      exact hvalue _ rfl
    · obtain ⟨w, hw, htext⟩ :=
        Row.exists_text_of_mem hrest (hrow t (List.mem_cons_of_mem p hmem)) hmem
      exact htext (textsOf_tail_eq_nil hvalue w hw)

end Result

/-! ## Resolution -/

/-- Resolving a row is filling it and merging what its values are joined to. -/
lemma run_resolveVariables_fill {c : Context} {source : Text → Source} {row : Row}
    (hrow : ∀ p ∈ row, p.Fits c.sources source) :
    (resolveVariables {} row.text).run c =
      (row.fill (handlerOf c) source false >>= fun vs =>
        restore <$> settle (nextRound (handlerOf c) c.mergesAllowed) (joined vs)).run c := by
  have hstart : (resolveVariables {} row.text).run c =
      (sweep (handlerOf c) {} row.text.reverse [] >>= fun v =>
        restore <$> settle (nextRound (handlerOf c) c.mergesAllowed) v).run c := by
    rw [run_resolveVariables, ← Marks.delimiters_standard, resolveText_eq, map_bind]
  rw [hstart, EStateM.run_bind, handlerOf, Row.run_sweep_whole hrow, ← EStateM.run_bind,
    bind_map_left]

lemma run_resolveVariables_of_fill {c c' : Context} {source : Text → Source} {row : Row}
    (hrow : ∀ p ∈ row, p.Fits c.sources source) {vs : List Value}
    (h : (row.fill (handlerOf c) source false).run c = .ok vs c')
    (hparams : c'.scopes.templateParams = []) :
    (resolveVariables {} row.text).run c = .ok (restore (joined vs)) c' := by
  rw [run_resolveVariables_fill hrow, run_bind_of_ok h, map_eq_pure_bind,
    run_bind_of_ok (run_settle_of_no_params _ _ hparams), EStateM.run_pure]

/-- **A row of texts and tokens comes to a text, or to the value of its first token.**  Resolving a
row asks the sources of its tokens from the last to the first, and passes a failure on.  If it comes
to values, and no template parameters are there then, the result is what the values are joined to,
without escape marks.  This is a text if there is a literal text in the row, or if a token but the
first has a value whose text is not empty.  If all of them have empty texts it is the value of the
first token, whatever its kind. -/
theorem run_resolveVariables_row (c : Context) (source : Text → Source) (row : Row)
    (hrow : ∀ p ∈ row, p.Fits c.sources source) :
    (resolveVariables {} row.text).run c =
      (row.fill (handlerOf c) source false >>= fun vs =>
        restore <$> settle (nextRound (handlerOf c) c.mergesAllowed) (joined vs)).run c ∧
    ∀ vs c', (row.fill (handlerOf c) source false).run c = .ok vs c' →
      c'.scopes.templateParams = [] →
      (resolveVariables {} row.text).run c = .ok (restore (joined vs)) c' ∧
      ((∃ t, joined vs = .str t) ∨
        (∀ t, .literal t ∉ row) ∧ ∀ v ∈ vs.tail, v.text = []) ∧
      ∀ v ws, vs = v :: ws → (∀ w ∈ ws, w.text = []) → joined vs = v := by
  refine ⟨run_resolveVariables_fill hrow, fun vs c' hvs hparams =>
    ⟨run_resolveVariables_of_fill hrow hvs hparams, ?_, ?_⟩⟩
  -- If the values are joined to no text, the first is all there is of them.
  · by_cases htext : ∃ t, joined vs = .str t
    · exact .inl htext
    · have hvalue : ∀ t, joined vs ≠ .str t := fun t ht => htext ⟨t, ht⟩
      have hliteral : ∀ t, .literal t ∈ row → t ≠ [] := fun t ht => (hrow _ ht).1
      exact .inr ⟨Row.literal_notMem_of_fill hliteral hvs hvalue, textsOf_tail_eq_nil hvalue⟩
  · rintro v ws rfl hempty
    have hrest : textsOf ws = [] := List.flatMap_eq_nil_iff.2 hempty
    rw [joined, hrest]
    rfl

/-- A context with a number. -/
def numberContext : Context where
  scopes := { attributes := [(.str ['a'], .int 5)] }

/-- All tokens are those of attributes. -/
def attributeSource (_ : Text) : Source := scopeSource .attributes

/-- A number between two literal texts, the first of which has a backslash before a token. -/
def literalRow : Row :=
  [.literal ['x', '\\'], .token "attribute".toList ['a'], .token "attribute".toList ['a'],
   .literal ['y']]

/-- A number, and a value that is missing. -/
def missingRow : Row := [.token "attribute".toList ['a'], .token "attribute".toList ['b']]

lemma fits_attribute {key : Text} (hkey : '$' ∉ key ∧ '{' ∉ key ∧ '}' ∉ key) :
    (Part.token "attribute".toList key).Fits numberContext.sources attributeSource :=
  ⟨rfl, by decide, hkey⟩

/-- The escape is taken out and the rest is a text. -/
theorem run_resolveVariables_row_literal :
    (∀ p ∈ literalRow, p.Fits numberContext.sources attributeSource) ∧
      literalRow.text = "x\\$attribute\x7ba\x7d$attribute\x7ba\x7dy".toList ∧
      (resolveVariables {} literalRow.text).run numberContext =
        .ok (.str "x$attribute\x7ba\x7d5y".toList) numberContext := by
  have hrow : ∀ p ∈ literalRow, p.Fits numberContext.sources attributeSource := by
    simp only [literalRow, List.forall_mem_cons]
    exact ⟨⟨by simp, by decide⟩, fits_attribute (by decide), fits_attribute (by decide),
      ⟨by simp, by decide⟩, by simp⟩
  exact ⟨hrow, rfl, ((run_resolveVariables_row numberContext attributeSource literalRow hrow).2
    _ _ rfl rfl).1⟩

/-- A row of two tokens that comes to a number. -/
theorem run_resolveVariables_row_lost :
    missingRow.length = 2 ∧ (∀ p ∈ missingRow, p.Fits numberContext.sources attributeSource) ∧
      missingRow.text = "$attribute\x7ba\x7d$attribute\x7bb\x7d".toList ∧
      (resolveVariables {} missingRow.text).run numberContext = .ok (.int 5) numberContext := by
  have hrow : ∀ p ∈ missingRow, p.Fits numberContext.sources attributeSource := by
    simp only [missingRow, List.forall_mem_cons]
    exact ⟨fits_attribute (by decide), fits_attribute (by decide), by simp⟩
  exact ⟨rfl, hrow, rfl, run_resolveVariables_of_fill hrow rfl rfl⟩

end Stencil.Template
