import Stencil.Proofs.Condition.Layout

/-!
# Arguments of calls

The arguments of a call are read by two scans with rules of their own.  The first looks for the end
of the call and counts parentheses alone.  The second splits what stands before it, and keeps all
brackets that are open in mind, since a comma between brackets belongs to an argument.  Quoted texts
are nothing but text to either.

`Nested` says which texts the two scans agree on: quotes are closed, and brackets of the three kinds
are closed in the order in which they were opened.  Over such a text the first scan passes without
effect (`Nested.closed`), and so does the second, wherever the text has no commas of its own or
stands between brackets (`Nested.splitFrom_append`).  The main statement is `readOperand_arguments`,
that the arguments of a call are read back as they were written, if each of them is such a text
without commas of its own.

Splitting is undone by joining in any case, whatever quotes and brackets a text has
(`join_splitArguments`).
-/

namespace Stencil.Condition

/-! ## Joining what was split -/

lemma join_cons_cons (separator first second : Text) (rest : List Text) :
    Text.join separator (first :: second :: rest) =
      first ++ separator ++ Text.join separator (second :: rest) := rfl

lemma join_cons_head (separator : Text) (c : Char) (first : Text) (rest : List Text) :
    Text.join separator ((c :: first) :: rest) = c :: Text.join separator (first :: rest) := by
  cases rest with
  | nil => rfl
  | cons second rest => rfl

lemma join_splitFrom (closers : List Char) (quote : Option Char) (t : Text) :
    Text.join [','] ((splitFrom closers quote t).1 :: (splitFrom closers quote t).2) = t := by
  induction t generalizing closers quote with
  | nil => rfl
  | cons c t ih =>
    -- Only a comma outside brackets and quotes starts another argument.
    have onwards (closers : List Char) (quote : Option Char) :
        Text.join [','] ((c :: (splitFrom closers quote t).1) :: (splitFrom closers quote t).2) =
          c :: t := by
      rw [join_cons_head, ih]
    unfold splitFrom
    split
    · exact onwards _ _
    · split
      · exact onwards _ _
      · split
        · exact onwards _ _
        · split
          · exact onwards _ _
          · split
            · rename_i hcomma
              rw [Text.join_nil_cons (List.cons_ne_nil _ _), ih, hcomma.1]
              rfl
            · exact onwards _ _

/-- Nothing of a list of arguments is lost in splitting. -/
lemma join_splitArguments (t : Text) : Text.join [','] (splitArguments t) = t := by
  unfold splitArguments
  split
  · rename_i hempty
    exact (List.isEmpty_iff.1 hempty).symm
  · exact join_splitFrom [] none t

/-! ## Nested texts -/

/-- The brackets, each with the one that closes it. -/
def brackets : List (Char × Char) := [('(', ')'), ('{', '}'), ('[', ']')]

/-- The characters that a nested text cannot have on their own. -/
def delimiters : List Char := ['\'', '"', '(', ')', '{', '}', '[', ']']

/-- A text with its quotes closed and its brackets closed in their order.  Within quotes nothing but
the closing quote counts.  `commas` says whether there may be commas outside quotes and brackets. -/
inductive Nested : (commas : Bool) → Text → Prop where
  | nil {commas : Bool} : Nested commas []
  | plain {commas : Bool} {c : Char} {t : Text} (hc : c ∉ delimiters)
      (hcomma : c = ',' → commas = true) : Nested commas t → Nested commas (c :: t)
  | quoted {commas : Bool} {q : Char} {inner t : Text} (hq : q = '\'' ∨ q = '"') (hi : q ∉ inner) :
      Nested commas t → Nested commas (q :: (inner ++ q :: t))
  | bracketed {commas : Bool} {o c : Char} {inner t : Text} (hb : (o, c) ∈ brackets) :
      Nested true inner → Nested commas t → Nested commas (o :: (inner ++ c :: t))

/-- An argument as it may be written: a nested text without commas of its own. -/
abbrev IsArgument (t : Text) : Prop := Nested false t

lemma isQuote_iff (c : Char) : Text.isQuote c = true ↔ c = '\'' ∨ c = '"' := by
  simp [Text.isQuote]

/-- What a character that is no delimiter means to the scans. -/
lemma of_notMem_delimiters {c : Char} (hc : c ∉ delimiters) :
    Text.isQuote c = false ∧ closer? c = none ∧ c ≠ '(' ∧ c ≠ ')' := by
  simp only [delimiters, List.mem_cons, List.not_mem_nil, or_false, not_or] at hc
  obtain ⟨hsingle, hdouble, hround, hround', hcurly, -, hsquare, -⟩ := hc
  refine ⟨by simp [Text.isQuote, hsingle, hdouble], ?_, hround, hround'⟩
  unfold closer?
  split <;> first | contradiction | rfl

/-- What a bracket means to the scans. -/
lemma of_mem_brackets {o c : Char} (h : (o, c) ∈ brackets) :
    Text.isQuote o = false ∧ closer? o = some c ∧ Text.isQuote c = false ∧ closer? c = none ∧
      c ∈ delimiters := by
  simp only [brackets, List.mem_cons, Prod.mk.injEq, List.not_mem_nil, or_false] at h
  rcases h with ⟨rfl, rfl⟩ | ⟨rfl, rfl⟩ | ⟨rfl, rfl⟩ <;> decide

/-! ## The end of the call -/

lemma Closed.append {s t : Text} (hs : Closed s) (ht : Closed t) : Closed (s ++ t) := by
  induction hs with
  | nil => exact ht
  | plain hq ho hc _ ih => exact .plain hq ho hc ih
  | quoted hq hi _ ih =>
    rw [List.cons_append, List.append_assoc, List.cons_append]
    exact .quoted hq hi ih
  | nested hinner _ _ ih =>
    rw [List.cons_append, List.append_assoc, List.cons_append]
    exact .nested hinner ih

lemma Closed.between {o c : Char} {inner t : Text} (hb : (o, c) ∈ brackets) (hinner : Closed inner)
    (ht : Closed t) : Closed (o :: (inner ++ c :: t)) := by
  simp only [brackets, List.mem_cons, Prod.mk.injEq, List.not_mem_nil, or_false] at hb
  rcases hb with ⟨rfl, rfl⟩ | ⟨rfl, rfl⟩ | ⟨rfl, rfl⟩
  · exact .nested hinner ht
  · exact .plain rfl (by decide) (by decide) (hinner.append (.plain rfl (by decide) (by decide) ht))
  · exact .plain rfl (by decide) (by decide) (hinner.append (.plain rfl (by decide) (by decide) ht))

/-- In a nested text all parentheses are closed. -/
lemma Nested.closed {commas : Bool} {t : Text} (h : Nested commas t) : Closed t := by
  induction h with
  | nil => exact .nil
  | plain hc _ _ ih =>
    obtain ⟨hq, -, ho, hclose⟩ := of_notMem_delimiters hc
    exact .plain hq ho hclose ih
  | quoted hq hi _ ih => exact .quoted ((isQuote_iff _).2 hq) hi ih
  | bracketed hb _ _ ihinner ih => exact .between hb ihinner ih

lemma closed_join {arguments : List Text} (h : ∀ a ∈ arguments, IsArgument a) :
    Closed (Text.join [','] arguments) := by
  induction arguments with
  | nil => exact .nil
  | cons first rest ih =>
    obtain ⟨hfirst, hrest⟩ := List.forall_mem_cons.1 h
    cases rest with
    | nil => exact hfirst.closed
    | cons second rest =>
      have hcomma : Closed (',' :: Text.join [','] (second :: rest)) :=
        .plain rfl (by decide) (by decide) (ih hrest)
      have htext := hfirst.closed.append hcomma
      rwa [join_cons_cons, List.append_assoc, List.singleton_append]

/-! ## Splitting what was joined -/

lemma splitFrom_quoted {q : Char} {inner : Text} (hi : q ∉ inner) (closers : List Char) (t : Text) :
    splitFrom closers (some q) (inner ++ q :: t) =
      (inner ++ q :: (splitFrom closers none t).1, (splitFrom closers none t).2) := by
  induction inner with
  | nil => simp [splitFrom]
  | cons c inner ih =>
    obtain ⟨hc, hi⟩ : q ≠ c ∧ q ∉ inner := by simpa using hi
    simp only [List.cons_append, splitFrom, if_neg (Ne.symm hc), ih hi]

/-- Splitting passes over a nested text.  The brackets that are open around it are arbitrary, and
there has to be one if the text has commas of its own. -/
lemma Nested.splitFrom_append {commas : Bool} {t : Text} (h : Nested commas t)
    {closers : List Char} (hclosers : ∀ c ∈ closers, c ∈ delimiters)
    (hopen : commas = true → closers ≠ []) (rest : Text) :
    splitFrom closers none (t ++ rest) =
      (t ++ (splitFrom closers none rest).1, (splitFrom closers none rest).2) := by
  induction h generalizing closers rest with
  | nil => rfl
  | @plain commas c t hc hcomma _ ih =>
    obtain ⟨hq, ho, -, -⟩ := of_notMem_delimiters hc
    -- A plain character is no delimiter, so it closes no bracket that is open around the text.
    have hhead : ¬ closers.head? = some c := by
      intro hhead
      exact hc (hclosers c (List.mem_of_mem_head? hhead))
    have hsplits : ¬ (c = ',' ∧ closers = []) := by
      rintro ⟨hc, hnil⟩
      exact hopen (hcomma hc) hnil
    simp only [List.cons_append, splitFrom, hq, ho, hhead, hsplits, Bool.false_eq_true, if_false,
      ih hclosers hopen]
  | @quoted commas q inner t hq hi _ ih =>
    simp only [List.cons_append, List.append_assoc, splitFrom, (isQuote_iff q).2 hq, if_true,
      splitFrom_quoted hi, ih hclosers hopen]
  | @bracketed commas o c inner t hb _ _ ihinner ih =>
    obtain ⟨hqo, ho, hqc, hc, hmem⟩ := of_mem_brackets hb
    have hinside := ihinner (List.forall_mem_cons.2 ⟨hmem, hclosers⟩)
      (fun _ => List.cons_ne_nil c closers)
    simp only [List.cons_append, List.append_assoc, splitFrom, hqo, ho, Bool.false_eq_true,
      if_false, hinside, hqc, hc, List.head?_cons, if_true, List.tail_cons, ih hclosers hopen]

lemma splitFrom_join {first : Text} {rest : List Text}
    (h : ∀ a ∈ first :: rest, IsArgument a) :
    splitFrom [] none (Text.join [','] (first :: rest)) = (first, rest) := by
  induction rest generalizing first with
  | nil =>
    have hnone : ∀ c ∈ ([] : List Char), c ∈ delimiters := by simp
    have hfirst := (h first List.mem_cons_self).splitFrom_append hnone (by simp) []
    simpa [Text.join, splitFrom] using hfirst
  | cons second rest ih =>
    obtain ⟨hfirst, hrest⟩ := List.forall_mem_cons.1 h
    have hcomma : splitFrom [] none (',' :: Text.join [','] (second :: rest)) =
        ([], second :: rest) := by
      rw [splitFrom, ih hrest]
      rfl
    rw [join_cons_cons, List.append_assoc, List.singleton_append,
      hfirst.splitFrom_append (by simp) (by simp), hcomma, List.append_nil]

/-- Arguments are split as they were joined.  Only an empty argument that is alone is not there. -/
lemma splitArguments_join {arguments : List Text} (h : ∀ a ∈ arguments, IsArgument a)
    (hne : arguments ≠ [[]]) : splitArguments (Text.join [','] arguments) = arguments := by
  cases arguments with
  | nil => rfl
  | cons first rest =>
    have htext : (Text.join [','] (first :: rest)).isEmpty = false := by
      cases rest with
      | nil =>
        have hfirst : first ≠ [] := by
          rintro rfl
          exact hne rfl
        simpa [Text.join] using hfirst
      | cons second rest => simp [Text.join]
    rw [splitArguments, htext, splitFrom_join h]
    rfl

/-! ## Calls -/

/-- **The arguments of a call arrive as they were written.**  Arguments with their quotes closed and
their brackets nested, and without commas of their own, are read back from the name of a function,
a parenthesis, the arguments with commas between them, and a closing parenthesis.  It is this
parenthesis that ends the call, whatever follows it, and what follows it is read next. -/
theorem readOperand_arguments {functions : FunctionRegistry} {name carried : Text}
    {kind : FunctionKind} (hname : functions.create name = .ok (some (carried, kind)))
    {arguments : List Text} (harguments : ∀ a ∈ arguments, IsArgument a)
    (hne : arguments ≠ [[]]) (source following : Text) :
    closingIndex? (name ++ '(' :: (Text.join [','] arguments ++ ')' :: following)) name.length =
        some (name.length + 1 + (Text.join [','] arguments).length) ∧
      readOperand functions source name ('(' :: (Text.join [','] arguments ++ ')' :: following)) =
        .ok (.call { name := carried, kind, arguments }, following) ∧
      (IsWord name → keyword? name = none →
        tokensOf functions source (name ++ '(' :: (Text.join [','] arguments ++ ')' :: following)) =
          (Token.operand (.call { name := carried, kind, arguments }) :: ·) <$>
            tokensOf functions source following) := by
  have hclosed := closed_join harguments
  have hread : readOperand functions source name
      ('(' :: (Text.join [','] arguments ++ ')' :: following)) =
        .ok (.call { name := carried, kind, arguments }, following) := by
    rw [readOperand_call hname hclosed, splitArguments_join harguments hne]
  refine ⟨?_, hread, ?_⟩
  · have hopen : closing? 0 none ('(' :: (Text.join [','] arguments ++ ')' :: following)) =
        some ('(' :: Text.join [','] arguments, following) := by
      rw [closing?]
      simp [Text.isQuote, closing?_arguments hclosed]
    rw [closingIndex?, List.drop_left, hopen]
    simp only [Option.map_some, List.length_cons]
    congr 1
    omega
  · intro hword hkeyword
    exact tokensOf_operand functions source hword hkeyword (endsWord_cons rfl _) hread

/-- The function `f`, as it is registered in `constantFunctions`. -/
def constantKind : FunctionKind := { className := ['F'], truth := fun _ _ => pure true }

/-- A comma between brackets, an argument that is empty, and a parenthesis between quotes. -/
def guardedArguments : List Text := ["{,()}".toList, [], "')'x".toList]

lemma isArgument_guardedArguments : ∀ a ∈ guardedArguments, IsArgument a := by
  have hparens : Nested true "()".toList := .bracketed (by decide) .nil .nil
  have hcomma : Nested true ",()".toList := .plain (by decide) (by decide) hparens
  have hbracketed : IsArgument "{,()}".toList := .bracketed (by decide) hcomma .nil
  have hx : IsArgument ['x'] := .plain (by decide) (by decide) .nil
  have hparen : '\'' ∉ [')'] := by decide
  have hquoted : IsArgument "')'x".toList := .quoted (.inl rfl) hparen hx
  intro a ha
  simp only [guardedArguments, List.mem_cons, List.not_mem_nil, or_false] at ha
  rcases ha with rfl | rfl | rfl
  · exact hbracketed
  · exact .nil
  · exact hquoted

/-- The call of `f` with these arguments. -/
def guardedCall : Call := { name := ['f'], kind := constantKind, arguments := guardedArguments }

/-- The arguments of `f({,()},,')'x))'&`, where a parenthesis and a quote without a match follow the
call. -/
theorem readOperand_arguments_guarded :
    constantFunctions.create ['f'] = .ok (some (['f'], constantKind)) ∧
      (∀ a ∈ guardedArguments, IsArgument a) ∧ guardedArguments ≠ [[]] ∧
      IsWord ['f'] ∧ keyword? ['f'] = none ∧
      readOperand constantFunctions "f({,()},,')'x))'&".toList ['f'] "({,()},,')'x))'&".toList =
        .ok (.call guardedCall, ")'&".toList) ∧
      tokensOf constantFunctions "f({,()},,')'x))'&".toList "f({,()},,')'x))'&".toList =
        (Token.operand (.call guardedCall) :: ·) <$>
          tokensOf constantFunctions "f({,()},,')'x))'&".toList ")'&".toList := by
  have hname : constantFunctions.create ['f'] = .ok (some (['f'], constantKind)) := rfl
  have hne : guardedArguments ≠ [[]] := by decide
  have hword : IsWord ['f'] := by decide
  have hkeyword : keyword? ['f'] = none := by decide
  obtain ⟨-, hread, hscan⟩ := readOperand_arguments hname isArgument_guardedArguments hne
    "f({,()},,')'x))'&".toList ")'&".toList
  exact ⟨hname, isArgument_guardedArguments, hne, hword, hkeyword, hread, hscan hword hkeyword⟩

end Stencil.Condition
