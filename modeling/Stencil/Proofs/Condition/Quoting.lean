import Stencil.Condition.Builtin
import Stencil.Proofs.Condition.Lossless
import Stencil.Proofs.Pair.Writing
import Stencil.Proofs.Text.Alphanumeric

/-!
# Quoted values in arguments

An argument `name='value'` is read three times: by the search for the end of the call, by the
splitting at commas, and as a name/value pair.  Where a quoted value ends is not the same for all of
them.  For the pair a quote behind a backslash belongs to the value; for the scans of the call a
backslash is a character like any other, and each quote of the kind ends a quoted text or begins
one.

So what the scans make of a value that is written with backslashes is what they make of it without
(`isWhole_iff_of_withoutBackslashes`).  The main statement `compile_quotedArgument` draws the line:
an argument is compiled and read back if the value in its quotes, with no backslashes added, is a
single argument to the scans (`IsWhole`), as it is if the quote does not occur in it; otherwise no
pair is read from the call, because there is no call, or not one argument, or one that is cut within
the value.
-/

namespace Stencil.Condition

open Input (Quoted Content protect standardTargets)

/-! ## Single arguments -/

/-- A text that the scans of a call take for a single argument: it is closed, and no comma splits
it. -/
def IsWhole (t : Text) : Prop := Closed t ∧ (splitFrom [] none t).2 = []

lemma splitArguments_eq_singleton_iff {t raw : Text} :
    splitArguments t = [raw] ↔ t ≠ [] ∧ raw = t ∧ (splitFrom [] none t).2 = [] := by
  have hjoin := join_splitFrom [] none t
  unfold splitArguments
  constructor
  · intro h
    split at h
    · cases h
    · rename_i hempty
      obtain ⟨hfirst, hrest⟩ := List.cons.inj h
      rw [hfirst, hrest] at hjoin
      exact ⟨fun hnil => hempty (by simp [hnil]), hjoin, hrest⟩
  · rintro ⟨hne, rfl, hrest⟩
    rw [hrest] at hjoin
    have hfirst : (splitFrom [] none raw).1 = raw := hjoin
    simp [hne, hfirst, hrest]

/-- A character that neither scan knows. -/
def IsPlain (c : Char) : Prop := c ∉ delimiters ∧ c ≠ ','

lemma isWhole_cons {c : Char} (hc : IsPlain c) (t : Text) : IsWhole (c :: t) ↔ IsWhole t := by
  obtain ⟨hq, ho, hopen, hclose⟩ := of_notMem_delimiters hc.1
  have hclosed : Closed (c :: t) ↔ Closed t := by
    refine ⟨fun h => ?_, Closed.plain hq hopen hclose⟩
    cases h with
    | plain _ _ _ ht => exact ht
    | quoted hq' _ _ => simp [hq] at hq'
    | nested _ _ => exact absurd rfl hopen
  have hsplit : (splitFrom [] none (c :: t)).2 = (splitFrom [] none t).2 := by
    simp [splitFrom, hq, ho, hc.2]
  rw [IsWhole, IsWhole, hclosed, hsplit]

lemma isWhole_append {s : Text} (hs : ∀ c ∈ s, IsPlain c) (t : Text) :
    IsWhole (s ++ t) ↔ IsWhole t := by
  induction s with
  | nil => rfl
  | cons c s ih =>
    obtain ⟨hc, hs⟩ := List.forall_mem_cons.1 hs
    rw [List.cons_append, isWhole_cons hc, ih hs]

/-- A quoted text without its quote is a single argument. -/
lemma isWhole_of_notMem {q : Char} (hq : Text.isQuote q = true) {t : Text} (ht : q ∉ t) :
    IsWhole (q :: (t ++ [q])) := by
  refine ⟨.quoted hq ht .nil, ?_⟩
  simp [splitFrom, hq, splitFrom_quoted ht]

/-! ## Backslashes -/

/-- A text without its backslashes. -/
def withoutBackslashes (t : Text) : Text := t.filter (· != '\\')

lemma withoutBackslashes_append (s t : Text) :
    withoutBackslashes (s ++ t) = withoutBackslashes s ++ withoutBackslashes t :=
  List.filter_append ..

lemma withoutBackslashes_cons {c : Char} (hc : c ≠ '\\') (t : Text) :
    withoutBackslashes (c :: t) = c :: withoutBackslashes t := by
  simp [withoutBackslashes, hc]

lemma withoutBackslashes_backslash (t : Text) :
    withoutBackslashes ('\\' :: t) = withoutBackslashes t := rfl

lemma withoutBackslashes_protect (closing : Char) (t : Text) :
    withoutBackslashes (protect closing t) = withoutBackslashes t := by
  induction t with
  | nil => rfl
  | cons c t ih =>
    have htail : withoutBackslashes (c :: protect closing t) = withoutBackslashes (c :: t) := by
      by_cases hc : c = '\\'
      · rw [hc, withoutBackslashes_backslash, withoutBackslashes_backslash, ih]
      · rw [withoutBackslashes_cons hc, withoutBackslashes_cons hc, ih]
    rw [protect]
    split
    · rw [withoutBackslashes_backslash, htail]
    · exact htail

section Scans

variable {quote : Option Char} (hquote : quote ≠ some '\\')

include hquote

/-- The search for the end of a call passes over a backslash. -/
lemma closing?_backslash (depth : Int) (t : Text) :
    closing? depth quote ('\\' :: t) =
      (closing? depth quote t).map fun (before, after) => ('\\' :: before, after) := by
  cases quote with
  | none => rfl
  | some q =>
    have hq : '\\' ≠ q := fun h => hquote (h ▸ rfl)
    simp [closing?, hq]

/-- So does splitting. -/
lemma splitFrom_backslash {closers : List Char} (hclosers : '\\' ∉ closers) (t : Text) :
    splitFrom closers quote ('\\' :: t) =
      ('\\' :: (splitFrom closers quote t).1, (splitFrom closers quote t).2) := by
  cases quote with
  | none =>
    have hback : Text.isQuote '\\' = false ∧ closer? '\\' = none := ⟨rfl, rfl⟩
    have hhead : closers.head? ≠ some '\\' := fun h => hclosers (List.mem_of_mem_head? h)
    simp [splitFrom, hback, hhead]
  | some q =>
    have hq : '\\' ≠ q := fun h => hquote (h ▸ rfl)
    simp [splitFrom, hq]

lemma closing?_withoutBackslashes (depth : Int) (t : Text) :
    closing? depth quote (withoutBackslashes t) = (closing? depth quote t).map
      fun (before, after) => (withoutBackslashes before, withoutBackslashes after) := by
  induction t generalizing depth quote with
  | nil => rfl
  | cons c t ih =>
    by_cases hc : c = '\\'
    · rw [hc, withoutBackslashes_backslash, ih hquote, closing?_backslash hquote, Option.map_map]
      rfl
    -- A character that is no backslash is passed over on both sides, whatever state it leads to.
    have onwards {quote : Option Char} (hquote : quote ≠ some '\\') (depth : Int) :
        ((closing? depth quote (withoutBackslashes t)).map fun (x, y) => (c :: x, y)) =
          ((closing? depth quote t).map fun (x, y) => (c :: x, y)).map
            fun (before, after) => (withoutBackslashes before, withoutBackslashes after) := by
      simp [ih hquote, Function.comp_def, withoutBackslashes_cons hc]
    rw [withoutBackslashes_cons hc]
    cases quote with
    | some q =>
      have hnext : (if c = q then none else some q) ≠ some '\\' := by
        split
        · simp
        · exact hquote
      exact onwards hnext depth
    | none =>
      simp only [closing?]
      split
      · exact onwards (by simpa using hc) depth
      split
      · exact onwards hquote (depth + 1)
      split
      · split
        · rfl
        · exact onwards hquote (depth - 1)
      · exact onwards hquote depth

lemma splitFrom_withoutBackslashes {closers : List Char} (hclosers : '\\' ∉ closers) (t : Text) :
    splitFrom closers quote (withoutBackslashes t) =
      (withoutBackslashes (splitFrom closers quote t).1,
        (splitFrom closers quote t).2.map withoutBackslashes) := by
  induction t generalizing closers quote with
  | nil => rfl
  | cons c t ih =>
    by_cases hc : c = '\\'
    · rw [hc, withoutBackslashes_backslash, ih hquote hclosers, splitFrom_backslash hquote hclosers,
        withoutBackslashes_backslash]
    -- The same as for the closing parenthesis, with the closers that are open, none of which is a
    -- backslash.
    have onwards {quote : Option Char} (hquote : quote ≠ some '\\') {closers : List Char}
        (hclosers : '\\' ∉ closers) :
        (c :: (splitFrom closers quote (withoutBackslashes t)).1,
            (splitFrom closers quote (withoutBackslashes t)).2) =
          (withoutBackslashes (c :: (splitFrom closers quote t).1),
            (splitFrom closers quote t).2.map withoutBackslashes) := by
      rw [ih hquote hclosers, withoutBackslashes_cons hc]
    rw [withoutBackslashes_cons hc]
    cases quote with
    | some q =>
      have hnext : (if c = q then none else some q) ≠ some '\\' := by
        split
        · simp
        · exact hquote
      exact onwards hnext hclosers
    | none =>
      simp only [splitFrom]
      split
      · exact onwards (by simpa using hc) hclosers
      split
      · rename_i closer hcloser
        have hne : closer ≠ '\\' := by
          rintro rfl
          unfold closer? at hcloser
          split at hcloser <;> cases hcloser
        exact onwards hquote (by simp [hclosers, Ne.symm hne])
      · split
        · exact onwards hquote fun h => hclosers (List.mem_of_mem_tail h)
        · split
          · have hnone : '\\' ∉ ([] : List Char) := List.not_mem_nil
            simp only [ih hquote hnone, List.map_cons]
            rfl
          · exact onwards hquote hclosers

end Scans

lemma closed_iff {t : Text} : Closed t ↔ closing? 1 none (t ++ [')']) = some (t, []) :=
  ⟨fun h => closing?_arguments h [], closed_of_closing?⟩

lemma closed_withoutBackslashes {t : Text} : Closed (withoutBackslashes t) ↔ Closed t := by
  have hquote : (none : Option Char) ≠ some '\\' := by simp
  have hscan := closing?_withoutBackslashes hquote 1 (t ++ [')'])
  have hparen : withoutBackslashes [')'] = [')'] := rfl
  rw [withoutBackslashes_append, hparen] at hscan
  rw [closed_iff, closed_iff, hscan]
  constructor
  · intro h
    obtain ⟨⟨before, after⟩, hfound, htexts⟩ := Option.map_eq_some_iff.1 h
    obtain ⟨-, hafter⟩ := Prod.mk.inj htexts
    have htext := append_of_closing? hfound
    -- The parenthesis at the end is no backslash, so nothing can be left behind the one found.
    rcases List.eq_nil_or_concat after with rfl | ⟨rest, last, rfl⟩
    · obtain ⟨rfl, -⟩ := List.append_inj' htext rfl
      exact hfound
    · have hlast : last = ')' := by
        have hconcat : (before ++ ')' :: rest) ++ [last] = t ++ [')'] := by simpa using htext
        simpa using (List.append_inj' hconcat rfl).2
      rw [hlast, List.concat_eq_append, withoutBackslashes_append, hparen] at hafter
      simp at hafter
  · intro h
    rw [h]
    rfl

/-- **To the scans of a call backslashes are nothing.**  Whether a text is a single argument does
not depend on the backslashes in it. -/
lemma isWhole_iff_of_withoutBackslashes {s t : Text}
    (h : withoutBackslashes s = withoutBackslashes t) : IsWhole s ↔ IsWhole t := by
  have hself (t : Text) : IsWhole (withoutBackslashes t) ↔ IsWhole t := by
    have hquote : (none : Option Char) ≠ some '\\' := by simp
    have hsplit := splitFrom_withoutBackslashes hquote (List.not_mem_nil (a := '\\')) t
    rw [IsWhole, IsWhole, closed_withoutBackslashes, hsplit, List.map_eq_nil_iff]
  rw [← hself s, h, hself t]

/-! ## Arguments -/

/-- A value in its quotes, with no backslashes added. -/
def bare (value : Quoted) : Text := value.quote :: (value.text ++ [value.quote])

lemma isPlain_of_tokenChar {c : Char} (hc : Input.tokenChar ['_', '.'] c = true) : IsPlain c := by
  have hnone : ∀ d ∈ ',' :: delimiters, Input.tokenChar ['_', '.'] d = false :=
    Text.eq_false_of_all rfl
  have hne : c ∉ ',' :: delimiters := by
    intro hmem
    rw [hnone c hmem] at hc
    cases hc
  exact ⟨fun hmem => hne (List.mem_cons_of_mem _ hmem), fun h => hne (h ▸ List.mem_cons_self)⟩

/-- An argument with a quoted value is to the scans what the bare value is. -/
lemma isWhole_line {name : Text} (hname : Input.Token ['_', '.'] name) (value : Quoted) :
    IsWhole (Content.line name (.text value)) ↔ IsWhole (bare value) := by
  have hplain : ∀ c ∈ name ++ ['='], IsPlain c := by
    intro c hc
    rcases List.mem_append.1 hc with hc | hc
    · exact isPlain_of_tokenChar (hname c hc)
    · obtain rfl := List.mem_singleton.1 hc
      exact ⟨by decide, by decide⟩
  have hq : value.quote ≠ '\\' := Input.backslash_ne_of_isQuote value.isQuote
  have hline : Content.line name (.text value) = (name ++ ['=']) ++ value.written := by
    simp [Content.line, Content.written]
  rw [hline, isWhole_append hplain]
  apply isWhole_iff_of_withoutBackslashes
  rw [Quoted.written, bare, withoutBackslashes_cons hq, withoutBackslashes_cons hq,
    withoutBackslashes_append, withoutBackslashes_append, withoutBackslashes_protect]

lemma pairOf_eq_pure_iff {raw : Text} {p : Pair} :
    pairOf raw = pure p ↔
      ∃ j, Input.readQuotedPair (Input.fresh standardTargets raw) = .ok p j := by
  have hfresh : Input.fresh standardTargets raw = Input.ofText raw := rfl
  rw [hfresh, pairOf]
  constructor
  · intro h
    split at h
    · rename_i q j hread
      obtain rfl : q = p := by simpa [Script.pure_eq] using h
      exact ⟨j, hread⟩
    · cases h
  · rintro ⟨j, hread⟩
    rw [hread]

/-- No pair is read from what a pair's text begins with. -/
lemma pairOf_ne_pure {p : Pair} {raw after : Text} {c : Char}
    (h : Input.PairText standardTargets p (raw ++ c :: after)) (q : Pair) :
    pairOf raw ≠ pure q := by
  intro hpair
  obtain ⟨j, hread⟩ := pairOf_eq_pure_iff.1 hpair
  obtain ⟨u, rest, hu, rfl, -⟩ := Input.readQuotedPair_fresh_eq_ok_iff.1 hread
  -- Both texts are read from the longer one, but what they leave of it is not the same.
  have hshort : Input.readQuotedPair (Input.fresh standardTargets (u ++ rest ++ c :: after)) = _ :=
    Input.readQuotedPair_fresh_eq_ok_iff.2 ⟨u, rest ++ c :: after, hu, by simp, rfl⟩
  have hlong := Input.readQuotedPair_fresh_eq_ok_iff.2 ⟨_, [], h, (List.append_nil _).symm, rfl⟩
  obtain ⟨-, hleft⟩ := EStateM.Result.ok.inj (hshort.symm.trans hlong)
  have hpending := congrArg Input.pending hleft
  simp at hpending

/-! ## Calls -/

/-- The call of a function with the text of its arguments. -/
def calling (f arguments : Text) : Text := f ++ '(' :: (arguments ++ [')'])

section Calls

variable {functions : FunctionRegistry} {f carried arguments condition : Text} {kind : FunctionKind}
  (hcreate : functions.create f = .ok (some (carried, kind))) (hword : IsWord f)
  (hkeyword : keyword? f = none)
  (hcondition : Text.withoutBlanks condition = calling f arguments)

include hcreate hword hkeyword hcondition

/-- A call with nothing behind it is all of its condition. -/
lemma compile_calling (harguments : Closed arguments) :
    Program.compile functions (some condition) =
      .ok { source := calling f arguments
            code := [.operand]
            operands :=
              [.call { name := carried, kind, arguments := splitArguments arguments }] } := by
  have hrow : tokensOf functions (calling f arguments) (calling f arguments) = .ok [.operand
      (.call { name := carried, kind, arguments := splitArguments arguments })] := by
    have hread : readOperand functions (calling f arguments) f ('(' :: (arguments ++ [')'])) = _ :=
      readOperand_call hcreate harguments
    have hscan := tokensOf_operand functions (calling f arguments) hword hkeyword
      (endsWord_cons rfl _) hread
    rw [tokensOf_nil] at hscan
    exact hscan
  simp only [Program.compile, Option.getD_some, hcondition, hrow]
  rfl

/-- Whatever a condition that starts with a call is compiled to, its first operand is the call, with
the arguments up to the first parenthesis that ends it. -/
lemma exists_of_compile_calling {program : Program} {call : Call}
    (h : Program.compile functions (some condition) = .ok program)
    (hcall : program.operands.head? = some (.call call)) :
    ∃ before after, before ++ ')' :: after = arguments ++ [')'] ∧ Closed before ∧
      call.arguments = splitArguments before := by
  simp only [Program.compile, Option.getD_some, hcondition] at h
  -- A call that is never closed does not compile; otherwise the operand is read, and the rest only
  -- decides whether there is a program.
  cases hclosing : closing? 1 none (arguments ++ [')']) with
  | none =>
    have hread : readOperand functions (calling f arguments) f ('(' :: (arguments ++ [')'])) =
        .error (.compilation (.unclosedArguments f) (calling f arguments)) := by
      simp [readOperand, hcreate, hclosing]
    have hscan : tokensOf functions (calling f arguments) (calling f arguments) = _ :=
      tokensOf_of_readOperand hword hkeyword (endsWord_cons rfl _) hread
    rw [hscan] at h
    cases h
  | some found =>
    obtain ⟨before, after⟩ := found
    have hclosed := closed_of_closing? hclosing
    have htext := append_of_closing? hclosing
    refine ⟨before, after, htext, hclosed, ?_⟩
    have hread : readOperand functions (calling f arguments) f ('(' :: (before ++ ')' :: after)) =
        _ := readOperand_call hcreate hclosed
    rw [htext] at hread
    have hscan : tokensOf functions (calling f arguments) (calling f arguments) = _ :=
      tokensOf_operand functions _ hword hkeyword (endsWord_cons rfl _) hread
    rw [hscan] at h
    cases hrest : tokensOf functions (calling f arguments) after with
    | error e =>
      rw [hrest] at h
      cases h
    | ok row =>
      rw [hrest] at h
      obtain rfl := Except.ok.inj h
      obtain rfl : _ = call := Operand.call.inj (Option.some.inj hcall)
      rfl

end Calls

/-- There is no whitespace in the call with a quoted value that has none. -/
lemma not_isBlank_of_mem_calling {f name : Text} (hname : Input.Token ['_', '.'] name)
    {value : Quoted} (hblank : ∀ c ∈ f ++ value.text, Text.isBlank c = false) :
    ∀ c ∈ calling f (Content.line name (.text value)), Text.isBlank c = false := by
  have hquote : Text.isBlank value.quote = false := by
    obtain h | h := (isQuote_iff _).1 value.isQuote <;> rw [h] <;> rfl
  have htoken : ∀ c, Input.tokenChar ['_', '.'] c = true → Text.isBlank c = false := by
    intro c hc
    rcases Bool.or_eq_true_iff.1 hc with halnum | hextra
    · exact Text.isBlank_of_isAlphanumeric halnum
    · obtain rfl | rfl : c = '_' ∨ c = '.' := by simpa using hextra
      · rfl
      · rfl
  have hprotect : ∀ c ∈ protect value.quote value.text, Text.isBlank c = false := by
    intro c hc
    -- Without its backslashes the protected text is the text.
    by_cases hback : c = '\\'
    · rw [hback]
      rfl
    · have hmem : c ∈ withoutBackslashes (protect value.quote value.text) :=
        List.mem_filter.2 ⟨hc, by simpa using hback⟩
      rw [withoutBackslashes_protect] at hmem
      exact hblank c (List.mem_append_right _ (List.mem_filter.1 hmem).1)
  intro c hc
  simp only [calling, Content.line, Content.written, Quoted.written, List.mem_append, List.mem_cons,
    List.not_mem_nil, or_false] at hc
  rcases hc with hc | rfl | (hc | rfl | rfl | hc | rfl) | rfl
  · exact hblank c (List.mem_append_left _ hc)
  · rfl
  · exact htoken c (hname c hc)
  · rfl
  · exact hquote
  · exact hprotect c hc
  · exact hquote
  · rfl

/-- **A quoted value is read back from a call iff the call's scans take it whole without
backslashes.**  Let `name='value'` be the argument of a function, with a backslash before each
backslash and each quote of its kind in the value, and nothing in it whitespace.  If the value
between its quotes, with no backslashes added, is a single argument to the scans, as it is where the
quote does not occur in it, then the condition compiles to the call with just this argument, and the
pair that is read from the argument has the name and the value.  Otherwise, if the condition
compiles to a call with one argument at all, no pair can be read from that. -/
theorem compile_quotedArgument {functions : FunctionRegistry} {f carried : Text}
    {kind : FunctionKind} (hcreate : functions.create f = .ok (some (carried, kind)))
    (hword : IsWord f) (hkeyword : keyword? f = none) {name : Text}
    (hname : Input.Token ['_', '.'] name) (value : Quoted)
    (hblank : ∀ c ∈ f ++ value.text, Text.isBlank c = false) :
    (value.quote ∉ value.text → IsWhole (bare value)) ∧
      (IsWhole (bare value) →
        Program.compile functions (some (calling f (Content.line name (.text value)))) =
            .ok { source := calling f (Content.line name (.text value))
                  code := [.operand]
                  operands := [.call { name := carried, kind,
                                       arguments := [Content.line name (.text value)] }] } ∧
          pairOf (Content.line name (.text value)) =
            pure { name, value := .str value.text }) ∧
      (¬ IsWhole (bare value) → ∀ program call raw,
        Program.compile functions (some (calling f (Content.line name (.text value)))) =
            .ok program →
          program.operands.head? = some (.call call) → call.arguments = [raw] →
            ∀ p, pairOf raw ≠ pure p) := by
  have hcondition := Text.withoutBlanks_eq_self (not_isBlank_of_mem_calling hname hblank)
  have hallowed : (Content.text value).Allowed standardTargets := trivial
  have hpair := Content.pairText_line hname hallowed
  have hne : Content.line name (.text value) ≠ [] := by simp [Content.line]
  refine ⟨isWhole_of_notMem value.isQuote, fun hwhole => ?_, ?_⟩
  · obtain ⟨hclosed, hsplit⟩ := (isWhole_line hname value).2 hwhole
    have harguments := splitArguments_eq_singleton_iff.2 ⟨hne, rfl, hsplit⟩
    have hcompile := compile_calling hcreate hword hkeyword hcondition hclosed
    rw [harguments] at hcompile
    have hread := Input.readQuotedPair_fresh_eq_ok_iff.2
      ⟨_, [], hpair, (List.append_nil _).symm, rfl⟩
    exact ⟨hcompile, pairOf_eq_pure_iff.2 ⟨_, hread⟩⟩
  · intro hsplit program call raw hprogram hcall harguments p
    obtain ⟨before, after, htext, hclosed, hcut⟩ :=
      exists_of_compile_calling hcreate hword hkeyword hcondition hprogram hcall
    rw [harguments] at hcut
    obtain ⟨-, rfl, hwhole⟩ := splitArguments_eq_singleton_iff.1 hcut.symm
    -- Either the call ends at its own parenthesis, and the argument is the whole line, or it ends
    -- early, and a part of the line is no pair.
    rcases List.eq_nil_or_concat after with rfl | ⟨rest, last, rfl⟩
    · obtain ⟨rfl, -⟩ := List.append_inj' htext rfl
      exact absurd ((isWhole_line hname value).1 ⟨hclosed, hwhole⟩) hsplit
    · have hline : (raw ++ ')' :: rest) ++ [last] = Content.line name (.text value) ++ [')'] := by
        simpa using htext
      obtain ⟨hline, -⟩ := List.append_inj' hline rfl
      rw [← hline] at hpair
      exact pairOf_ne_pure hpair p

/-- The value `'',)` in single quotes. -/
def twiceQuoted : Quoted := { quote := '\'', isQuote := rfl, text := "'',)".toList }

/-- Its quotes go in pairs, and the comma and the parenthesis stand between quotes with and without
the backslashes. -/
lemma isWhole_twiceQuoted : IsWhole (bare twiceQuoted) := by
  have hinner : '\'' ∉ ",)".toList := by decide
  exact ⟨@Closed.quoted '\'' [] _ rfl (by simp) (.quoted rfl hinner .nil), rfl⟩

/-- The argument of `f(a='\'\',)')`. -/
theorem compile_quotedArgument_twice :
    constantFunctions.create ['f'] = .ok (some (['f'], constantKind)) ∧ IsWord ['f'] ∧
      keyword? ['f'] = none ∧ Input.Token ['_', '.'] ['a'] ∧
      (∀ c ∈ ['f'] ++ twiceQuoted.text, Text.isBlank c = false) ∧ IsWhole (bare twiceQuoted) ∧
      Program.compile constantFunctions (some "f(a='\\'\\',)')".toList) =
        .ok { source := "f(a='\\'\\',)')".toList
              code := [.operand]
              operands := [.call { name := ['f'], kind := constantKind,
                                   arguments := ["a='\\'\\',)'".toList] }] } ∧
      pairOf "a='\\'\\',)'".toList = pure { name := ['a'], value := .str "'',)".toList } := by
  have hcreate : constantFunctions.create ['f'] = .ok (some (['f'], constantKind)) := rfl
  have hword : IsWord ['f'] := by decide
  have hname : Input.Token ['_', '.'] ['a'] := List.all_eq_true.1 rfl
  have hblank : ∀ c ∈ ['f'] ++ twiceQuoted.text, Text.isBlank c = false :=
    Text.eq_false_of_all rfl
  obtain ⟨hcompile, hpair⟩ :=
    (compile_quotedArgument hcreate hword rfl hname twiceQuoted hblank).2.1 isWhole_twiceQuoted
  exact ⟨hcreate, hword, rfl, hname, hblank, isWhole_twiceQuoted, hcompile, hpair⟩

/-- A value that is a single quote, written `'\''`: the call has no end. -/
theorem compile_quotedArgument_single :
    calling ['f'] (Content.line ['a'] (.text ⟨'\'', rfl, ['\'']⟩)) = "f(a='\\'')".toList ∧
      Program.compile constantFunctions (some "f(a='\\'')".toList) =
        .error (.compilation (.unclosedArguments ['f']) "f(a='\\'')".toList) := by
  have hsource : Text.withoutBlanks "f(a='\\'')".toList = "f(a='\\'')".toList := by decide
  have hread : readOperand constantFunctions "f(a='\\'')".toList ['f'] "(a='\\'')".toList =
      .error (.compilation (.unclosedArguments ['f']) "f(a='\\'')".toList) := rfl
  have hscan : tokensOf constantFunctions "f(a='\\'')".toList "f(a='\\'')".toList = _ :=
    tokensOf_of_readOperand (w := ['f']) (by decide) rfl (endsWord_cons rfl _) hread
  refine ⟨rfl, ?_⟩
  simp only [Program.compile, Option.getD_some, hsource, hscan]

end Stencil.Condition
