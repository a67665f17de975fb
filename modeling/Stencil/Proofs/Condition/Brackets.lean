import Stencil.Proofs.Condition.Arguments

/-!
# Brackets at the end of a call

Of the two scans that read the arguments of a call, the one that looks for their end counts
parentheses and nothing else, and the one that splits them at commas keeps all brackets in mind that
are open.  `Opened` is what the second scan keeps, and `splitFrom_append` says that it is all that
the scan of one part of a text hands on to the scan of the next.

The scans agree about quotes: none is open where the call ends.  About brackets they need not agree,
since a parenthesis that stands in braces or square brackets closes nothing for the second scan, but
counts for the first.  `Opened.Catches` says that a text has such a parenthesis.  The main statement
`closingIndex?_opened` is that these parentheses, the one that ends the call among them, are all
that the scans can disagree about: brackets are left open exactly if there is one.

The proof goes along the grammar of the text between the parentheses of a call (`Closed`) and
compares the number of parentheses that either scan waits for.  They are as many as long as no
parenthesis is caught, and one that is caught is never made up for (`Closed.readAll_opened`).
-/

namespace Stencil.Condition

/-! ## What a scan has open -/

/-- What is open where a text has been split up to: the closing brackets that are awaited, innermost
first, and the quote. -/
@[ext]
structure Opened where
  closers : List Char
  quote : Option Char
  deriving DecidableEq

namespace Opened

/-- Nothing is open. -/
def nothing : Opened := ⟨[], none⟩

/-- What is open after one more character. -/
def read (o : Opened) (c : Char) : Opened :=
  match o.quote with
  | some q => ⟨o.closers, if c = q then none else some q⟩
  | none =>
    if Text.isQuote c then ⟨o.closers, some c⟩
    else match closer? c with
      | some closer => ⟨closer :: o.closers, none⟩
      | none => if o.closers.head? = some c then ⟨o.closers.tail, none⟩ else o

/-- What is open after a text. -/
def readAll (o : Opened) (t : Text) : Opened := t.foldl read o

/-- A text has a closing parenthesis outside of quotes that comes where a brace or a square bracket
is the innermost one that is open. -/
def Catches (o : Opened) : Text → Prop
  | [] => False
  | c :: t =>
    (c = ')' ∧ o.quote = none ∧ o.closers.head? ∈ [some '}', some ']']) ∨ (o.read c).Catches t

instance decidableCatches : (o : Opened) → (t : Text) → Decidable (o.Catches t)
  | _, [] => inferInstanceAs (Decidable False)
  | o, c :: t =>
    have := decidableCatches (o.read c) t
    inferInstanceAs (Decidable ((c = ')' ∧ _ ∧ _) ∨ (o.read c).Catches t))

@[simp] lemma readAll_nil (o : Opened) : o.readAll [] = o := rfl

@[simp] lemma readAll_cons (o : Opened) (c : Char) (t : Text) :
    o.readAll (c :: t) = (o.read c).readAll t := rfl

@[simp] lemma readAll_append (o : Opened) (s t : Text) :
    o.readAll (s ++ t) = (o.readAll s).readAll t := List.foldl_append

lemma catches_cons {o : Opened} {c : Char} {t : Text} :
    o.Catches (c :: t) ↔
      (c = ')' ∧ o.quote = none ∧ o.closers.head? ∈ [some '}', some ']']) ∨ (o.read c).Catches t :=
  Iff.rfl

lemma catches_append {o : Opened} {s t : Text} :
    o.Catches (s ++ t) ↔ o.Catches s ∨ (o.readAll s).Catches t := by
  induction s generalizing o with
  | nil => simp [Catches]
  | cons c s ih => rw [List.cons_append, catches_cons, ih, catches_cons, or_assoc, readAll_cons]

end Opened

/-! ## Splitting from where it was left -/

/-- The arguments of a text that goes on: its last one is carried on by the first one of what
follows. -/
def carryOn (first : Text) : List Text → Text × List Text → Text × List Text
  | [], next => (first ++ next.1, next.2)
  | second :: rest, next =>
    (first, (carryOn second rest next).1 :: (carryOn second rest next).2)

lemma carryOn_cons (c : Char) (first : Text) (rest : List Text) (next : Text × List Text) :
    carryOn (c :: first) rest next =
      (c :: (carryOn first rest next).1, (carryOn first rest next).2) := by
  cases rest <;> rfl

/-- One step of splitting.  Only a comma with nothing open around it ends an argument. -/
lemma splitFrom_cons (o : Opened) (c : Char) (t : Text) :
    splitFrom o.closers o.quote (c :: t) =
      let onwards := splitFrom (o.read c).closers (o.read c).quote t
      if c = ',' ∧ o = .nothing then ([], onwards.1 :: onwards.2)
      else (c :: onwards.1, onwards.2) := by
  obtain ⟨closers, quote⟩ := o
  -- Within quotes both sides read on in the same state; the cases are about what may be open
  -- outside.
  cases quote with
  | some q =>
    simp only [splitFrom, Opened.read, Opened.nothing, Opened.mk.injEq, reduceCtorEq, and_false,
      if_false]
  | none =>
    simp only [splitFrom, Opened.read, Opened.nothing, Opened.mk.injEq, and_true]
    by_cases hq : Text.isQuote c = true
    · have hc : c ≠ ',' := by
        rintro rfl
        exact absurd hq (by decide)
      simp [hq, hc]
    · cases hcloser : closer? c with
      | some closer =>
        have hc : c ≠ ',' := by
          rintro rfl
          cases hcloser
        simp [hq, hc]
      | none =>
        by_cases hhead : closers.head? = some c
        · have hne : closers ≠ [] := by
            rintro rfl
            cases hhead
          simp [hq, hhead, hne]
        · by_cases hcomma : c = ',' ∧ closers = []
          · obtain ⟨rfl, rfl⟩ := hcomma
            rfl
          · simp only [hq, hhead, hcomma, Bool.false_eq_true, if_false]

/-- The second part of a text is split from what the first part has left open. -/
lemma splitFrom_append (o : Opened) (s t : Text) :
    splitFrom o.closers o.quote (s ++ t) =
      carryOn (splitFrom o.closers o.quote s).1 (splitFrom o.closers o.quote s).2
        (splitFrom (o.readAll s).closers (o.readAll s).quote t) := by
  induction s generalizing o with
  | nil => simp [splitFrom, carryOn]
  | cons c s ih =>
    rw [List.cons_append, splitFrom_cons, splitFrom_cons, ih, Opened.readAll_cons]
    by_cases hcomma : c = ',' ∧ o = .nothing
    · simp only [if_pos hcomma, carryOn]
    · simp only [if_neg hcomma, carryOn_cons]

/-! ## Steps of the scan -/

/-- Closing brackets. -/
def Closers (k : List Char) : Prop := ∀ c ∈ k, c ∈ [')', '}', ']']

lemma Closers.tail {k : List Char} (hk : Closers k) : Closers k.tail :=
  fun c hc => hk c (List.mem_of_mem_tail hc)

section Steps

variable {k : List Char}

lemma readAll_quoted {q : Char} {inner : Text} (hi : q ∉ inner) :
    Opened.readAll ⟨k, some q⟩ (inner ++ [q]) = ⟨k, none⟩ ∧
      ¬ Opened.Catches ⟨k, some q⟩ (inner ++ [q]) := by
  induction inner with
  | nil => simp [Opened.read, Opened.Catches]
  | cons c inner ih =>
    obtain ⟨hc, hi⟩ : q ≠ c ∧ q ∉ inner := by simpa using hi
    simpa [Opened.read, Opened.catches_cons, Ne.symm hc] using ih hi

/-- A character that is neither quote nor parenthesis leaves the parentheses alone that are
awaited. -/
lemma read_plain (hk : Closers k) {c : Char} (hq : Text.isQuote c = false) (ho : c ≠ '(')
    (hc : c ≠ ')') :
    ∃ k', Opened.read ⟨k, none⟩ c = ⟨k', none⟩ ∧ Closers k' ∧ k'.count ')' = k.count ')' := by
  have hcloser : closer? c = none ∨ closer? c = some '}' ∨ closer? c = some ']' := by
    unfold closer?
    split <;> simp_all
  rcases hcloser with hnone | hsome
  · by_cases hhead : k.head? = some c
    · obtain ⟨k, rfl⟩ := List.head?_eq_some_iff.1 hhead
      refine ⟨k, by simp [Opened.read, hq, hnone], hk.tail, ?_⟩
      rw [List.count_cons_of_ne hc]
    · exact ⟨k, by simp [Opened.read, hq, hnone, hhead], hk, rfl⟩
  · rcases hsome with hbrace | hsquare
    · refine ⟨'}' :: k, by simp [Opened.read, hq, hbrace], ?_, by simp⟩
      exact List.forall_mem_cons.2 ⟨by simp, hk⟩
    · refine ⟨']' :: k, by simp [Opened.read, hq, hsquare], ?_, by simp⟩
      exact List.forall_mem_cons.2 ⟨by simp, hk⟩

/-- Where a parenthesis is awaited, a closing one is caught, or it closes that one. -/
lemma read_close (hk : Closers k) (hopen : 0 < k.count ')') :
    ∃ k', Opened.read ⟨k, none⟩ ')' = ⟨k', none⟩ ∧ Closers k' ∧
      (k.head? ∈ [some '}', some ']'] ∧ k'.count ')' = k.count ')' ∨
        k.head? ∉ [some '}', some ']'] ∧ k'.count ')' + 1 = k.count ')') := by
  cases k with
  | nil => simp at hopen
  | cons c k =>
    have hnone : closer? ')' = none := rfl
    have hquote : Text.isQuote ')' = false := rfl
    by_cases hc : c = ')'
    · subst hc
      refine ⟨k, by simp [Opened.read, hnone, hquote], hk.tail, .inr ⟨by simp, by simp⟩⟩
    · have hcaught : c = '}' ∨ c = ']' := by simpa [hc] using hk c List.mem_cons_self
      refine ⟨c :: k, by simp [Opened.read, hnone, hquote, hc], hk, .inl ⟨?_, rfl⟩⟩
      rcases hcaught with rfl | rfl <;> simp

end Steps

/-! ## Texts of arguments -/

/-- What a closed text leaves open: no quote, and parentheses at least as many as before.  They are
just as many iff none in the text is caught. -/
lemma Closed.readAll_opened {t : Text} (h : Closed t) {k : List Char} (hk : Closers k) :
    ∃ k', Opened.readAll ⟨k, none⟩ t = ⟨k', none⟩ ∧ Closers k' ∧ k.count ')' ≤ k'.count ')' ∧
      (k'.count ')' = k.count ')' ↔ ¬ Opened.Catches ⟨k, none⟩ t) := by
  -- The closers that are open around the text are arbitrary in the induction: a nested text is read
  -- with one more of them.
  induction h generalizing k with
  | nil => exact ⟨k, rfl, hk, Nat.le_refl _, by simp [Opened.Catches]⟩
  | @plain c t hq ho hc _ ih =>
    obtain ⟨k₁, hread, hk₁, hcount⟩ := read_plain hk hq ho hc
    obtain ⟨k₂, hrest, hk₂, hle, hiff⟩ := ih hk₁
    rw [hcount] at hle hiff
    refine ⟨k₂, by rw [Opened.readAll_cons, hread, hrest], hk₂, hle, ?_⟩
    simpa [Opened.catches_cons, hc, hread] using hiff
  | @quoted q inner t hq hi _ ih =>
    obtain ⟨k₁, hrest, hk₁, hle, hiff⟩ := ih hk
    obtain ⟨hquoted, hnone⟩ := readAll_quoted (k := k) hi
    have hread : Opened.read ⟨k, none⟩ q = ⟨k, some q⟩ := by simp [Opened.read, hq]
    have hc : q ≠ ')' := by
      rintro rfl
      exact absurd hq (by decide)
    have htext : q :: (inner ++ q :: t) = q :: ((inner ++ [q]) ++ t) := by simp
    refine ⟨k₁, ?_, hk₁, hle, ?_⟩
    · rw [htext, Opened.readAll_cons, hread, Opened.readAll_append, hquoted, hrest]
    · rw [htext, Opened.catches_cons, hread, Opened.catches_append, hquoted]
      simpa [hc, hnone] using hiff
  | @nested inner t _ _ ihinner ih =>
    have hopen : Opened.read ⟨k, none⟩ '(' = ⟨')' :: k, none⟩ := rfl
    have hk₀ : Closers (')' :: k) := List.forall_mem_cons.2 ⟨by simp, hk⟩
    obtain ⟨k₁, hinner, hk₁, hle₁, hiff₁⟩ := ihinner hk₀
    rw [List.count_cons_self] at hle₁ hiff₁
    -- The parenthesis behind the inner text closes the one before it, unless a bracket that was
    -- opened in between catches it.
    obtain ⟨k₂, hclose, hk₂, hcases⟩ := read_close hk₁ (by omega)
    obtain ⟨k₃, hrest, hk₃, hle₃, hiff₃⟩ := ih hk₂
    refine ⟨k₃, ?_, hk₃, by omega, ?_⟩
    · rw [Opened.readAll_cons, hopen, Opened.readAll_append, hinner, Opened.readAll_cons, hclose,
        hrest]
    · rw [Opened.catches_cons, hopen, Opened.catches_append, hinner, Opened.catches_cons, hclose]
      rcases hcases with ⟨hcaught, hcount⟩ | ⟨hfree, hcount⟩
      · have hmore : k₃.count ')' ≠ k.count ')' := by omega
        simp [hmore, hcaught]
      · have hcounts : k₃.count ')' = k.count ')' ↔
            k₁.count ')' = k.count ')' + 1 ∧ k₃.count ')' = k₂.count ')' := by omega
        rw [hcounts, hiff₁, hiff₃]
        simp [hfree]

/-- A closed text between parentheses leaves nothing open iff none of its parentheses is caught, nor
the one behind it. -/
lemma Closed.readAll_nothing {t : Text} (h : Closed t) :
    (Opened.nothing.readAll t).quote = none ∧
      ((Opened.nothing.readAll t).closers = [] ↔ ¬ Opened.nothing.Catches (t ++ [')'])) := by
  have hnone : Closers [] := by simp [Closers]
  obtain ⟨k, hread, hk, -, hiff⟩ := h.readAll_opened hnone
  rw [Opened.nothing, Opened.catches_append, hread]
  refine ⟨rfl, ?_⟩
  constructor
  · rintro rfl
    simpa [Opened.Catches] using hiff
  · intro hfree
    obtain ⟨hinside, hbehind⟩ := not_or.1 hfree
    -- No parenthesis is left open, so the innermost closer is that of another bracket and catches
    -- the one behind.
    cases k with
    | nil => rfl
    | cons c k =>
      have hcount : (c :: k).count ')' = 0 := by simpa using hiff.2 hinside
      have hne : c ≠ ')' := by
        rintro rfl
        simp at hcount
      have hc : c = '}' ∨ c = ']' := by simpa [hne] using hk c List.mem_cons_self
      refine absurd ?_ hbehind
      rcases hc with rfl | rfl <;> simp [Opened.Catches]

/-! ## Calls -/

/-- The text that the search for the end of a call passes over, and where it stops. -/
lemma exists_of_closingIndex? {t : Text} {start stop : Nat} (hopen : t[start]? = some '(')
    (h : closingIndex? t start = some stop) :
    ∃ arguments after, t = t.take start ++ '(' :: (arguments ++ ')' :: after) ∧
      stop = start + 1 + arguments.length ∧ Closed arguments := by
  obtain ⟨hstart, hchar⟩ := List.getElem?_eq_some_iff.1 hopen
  have hdrop : t.drop start = '(' :: t.drop (start + 1) := by
    rw [List.drop_eq_getElem_cons hstart, hchar]
  obtain ⟨⟨before, after⟩, hfound, hstop⟩ := Option.map_eq_some_iff.1 h
  have hquote : Text.isQuote '(' = false := rfl
  rw [hdrop, closing?] at hfound
  simp only [hquote, Bool.false_eq_true, if_false, if_true] at hfound
  obtain ⟨arguments, rfl, hclosing⟩ := exists_of_map_cons hfound
  refine ⟨arguments, after, ?_, ?_, closed_of_closing? hclosing⟩
  · rw [append_of_closing? hclosing, ← hdrop, List.take_append_drop]
  · rw [← hstop]
    simp only [List.length_cons]
    omega

/-- **Where a call ends no quote is open, and no bracket unless a parenthesis was caught in one.**
Let the parenthesis at `start` be closed by the one at `stop`.  Splitting the text between them
comes to the end of it with no quote open; and with no bracket open if and only if outside of quotes
no closing parenthesis, neither in the text nor the one at `stop`, stands where a brace or a square
bracket is the innermost that is open.  What is open is what splitting goes on with. -/
theorem closingIndex?_opened {t : Text} {start stop : Nat} (hopen : t[start]? = some '(')
    (hstop : closingIndex? t start = some stop) :
    ∃ arguments after, t = t.take start ++ '(' :: (arguments ++ ')' :: after) ∧
      stop = start + 1 + arguments.length ∧
      (∀ more, splitFrom [] none (arguments ++ more) =
        carryOn (splitFrom [] none arguments).1 (splitFrom [] none arguments).2
          (splitFrom (Opened.nothing.readAll arguments).closers
            (Opened.nothing.readAll arguments).quote more)) ∧
      (Opened.nothing.readAll arguments).quote = none ∧
      ((Opened.nothing.readAll arguments).closers = [] ↔
        ¬ Opened.nothing.Catches (arguments ++ [')'])) := by
  obtain ⟨arguments, after, htext, hlength, hclosed⟩ := exists_of_closingIndex? hopen hstop
  exact ⟨arguments, after, htext, hlength, splitFrom_append .nothing arguments,
    hclosed.readAll_nothing⟩

/-- In `f({[(')')]},)&` parentheses stand in braces and square brackets, but none is caught. -/
theorem closingIndex?_opened_guarded :
    "f(\x7b[(')')]\x7d,)&".toList[1]? = some '(' ∧
      closingIndex? "f(\x7b[(')')]\x7d,)&".toList 1 = some 12 ∧
      Opened.nothing.readAll "\x7b[(')')]\x7d,".toList = .nothing ∧
      ¬ Opened.nothing.Catches "\x7b[(')')]\x7d,)".toList := by
  have hopen : "f(\x7b[(')')]\x7d,)&".toList[1]? = some '(' := rfl
  have hstop : closingIndex? "f(\x7b[(')')]\x7d,)&".toList 1 = some 12 := rfl
  obtain ⟨arguments, after, htext, hlength, -, hquote, hclosers⟩ := closingIndex?_opened hopen hstop
  obtain rfl : "\x7b[(')')]\x7d,".toList = arguments := by
    have htake := congrArg (fun t => (t.drop 2).take 10) htext
    have hten : arguments.length = 10 := by omega
    simpa [List.take_append_of_le_length, hten] using htake
  have hfree : ¬ Opened.nothing.Catches "\x7b[(')')]\x7d,)".toList := by decide
  exact ⟨hopen, hstop, Opened.ext (hclosers.2 hfree) hquote, hfree⟩

/-- The text `f($attribute{a)b})`, with a parenthesis between braces. -/
def caughtCall : Text := "f($attribute\x7ba)b\x7d)".toList

/-- The parenthesis between the braces ends the call. -/
theorem closingIndex?_opened_caught :
    caughtCall[1]? = some '(' ∧ closingIndex? caughtCall 1 = some 14 ∧
      caughtCall = "f(".toList ++ "$attribute\x7ba".toList ++ ")b\x7d)".toList ∧
      (Opened.nothing.readAll "$attribute\x7ba".toList).closers = ['}'] := by
  decide

end Stencil.Condition
