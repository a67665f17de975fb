import Stencil.Condition.Program
import Mathlib.Tactic.Lemma

/-!
# Scanning of words and calls

What the scanner makes of a text that is written piece by piece.  Each lemma speaks of one piece, an
operator, a keyword, a value or a call, and of an arbitrary text after it: the scanner takes the
piece as one token and goes on with the text after it.  A word is only taken as a whole where the
text after it does not carry it on (`EndsWord`).

The arguments of a call are taken up to the parenthesis that matches.  `Closed` is the grammar of
the texts over which the search for it passes without effect (`closing?_closed`): quoted texts,
nested parentheses, and any other characters.
-/

namespace Stencil.Condition

/-! ## Words -/

/-- A word: at least one character and no operator. -/
structure IsWord (w : Text) : Prop where
  nonempty : w ≠ []
  plain : ∀ c ∈ w, Symbol.operator? c = none

instance decidableIsWord (w : Text) : Decidable (IsWord w) :=
  decidable_of_iff (w ≠ [] ∧ w.all fun c => (Symbol.operator? c).isNone)
    ⟨fun h => ⟨h.1, by simpa using h.2⟩, fun h => ⟨h.1, by simpa using h.2⟩⟩

/-- A text that carries no word on: it is empty or starts with an operator. -/
def EndsWord (t : Text) : Prop := ∀ c ∈ t.head?, (Symbol.operator? c).isSome

lemma endsWord_nil : EndsWord [] := by simp [EndsWord]

lemma endsWord_cons {c : Char} (hc : (Symbol.operator? c).isSome) (t : Text) :
    EndsWord (c :: t) := by
  simpa [EndsWord] using hc

lemma splitWord_append_of_endsWord {w after : Text} (hw : IsWord w) (ha : EndsWord after) :
    splitWord (w ++ after) = (w, after) := by
  have hplain : ∀ c ∈ w, (!Symbol.isOperatorChar c) = true := by
    intro c hc
    simp [Symbol.isOperatorChar, hw.plain c hc]
  have hafter : after.takeWhile (!Symbol.isOperatorChar ·) = [] ∧
      after.dropWhile (!Symbol.isOperatorChar ·) = after := by
    cases after with
    | nil => simp
    | cons c t =>
      have hsome : (Symbol.operator? c).isSome = true := ha c (by simp)
      have hc : ¬(!Symbol.isOperatorChar c) = true := by
        rw [Symbol.isOperatorChar, hsome]
        decide
      exact ⟨List.takeWhile_cons_of_neg hc, List.dropWhile_cons_of_neg hc⟩
  simp only [splitWord, List.takeWhile_append_of_pos hplain, List.dropWhile_append_of_pos hplain,
    hafter, List.append_nil]

/-! ## Pieces -/

section Pieces

variable (functions : FunctionRegistry) (source : Text)

lemma tokensOf_nil : tokensOf functions source [] = .ok [] := by
  rw [tokensOf]

/-- An operator is one token. -/
lemma tokensOf_operator {c : Char} {s : Symbol} (hc : Symbol.operator? c = some s) (rest : Text) :
    tokensOf functions source (c :: rest) =
      (Token.operator s :: ·) <$> tokensOf functions source rest := by
  rw [tokensOf]
  split
  · rename_i s' hs'
    obtain rfl : s = s' := by simpa [hc] using hs'
    cases tokensOf functions source rest <;> rfl
  · rename_i hnone
    simp [hc] at hnone

/-- A keyword is one token. -/
lemma tokensOf_keyword {w after : Text} {b : Bool} (hw : IsWord w) (hb : keyword? w = some b)
    (ha : EndsWord after) :
    tokensOf functions source (w ++ after) =
      (Token.keyword b :: ·) <$> tokensOf functions source after := by
  have hsplit := splitWord_append_of_endsWord hw ha
  obtain ⟨c, cs, rfl⟩ := List.exists_cons_of_ne_nil hw.nonempty
  rw [List.cons_append] at hsplit ⊢
  rw [tokensOf]
  split
  · rename_i s hs
    simp [hw.plain c (by simp)] at hs
  · simp only [hsplit, hb]
    cases tokensOf functions source after <;> rfl

/-- A value or a call is one token, whatever of the text after the word the reading of it takes. -/
lemma tokensOf_operand {w after rest : Text} {o : Operand} (hw : IsWord w)
    (hb : keyword? w = none) (ha : EndsWord after)
    (ho : readOperand functions source w after = .ok (o, rest)) :
    tokensOf functions source (w ++ after) =
      (Token.operand o :: ·) <$> tokensOf functions source rest := by
  have hsplit := splitWord_append_of_endsWord hw ha
  obtain ⟨c, cs, rfl⟩ := List.exists_cons_of_ne_nil hw.nonempty
  rw [List.cons_append] at hsplit ⊢
  rw [tokensOf]
  split
  · rename_i s hs
    simp [hw.plain c (by simp)] at hs
  · simp only [hsplit, hb]
    split
    · rename_i o' after' ho'
      obtain ⟨rfl, rfl⟩ : o = o' ∧ rest = after' := by simpa [hsplit, ho] using ho'
      cases tokensOf functions source rest <;> rfl
    · rename_i e he
      simp [hsplit, ho] at he

end Pieces

/-! ## Arguments of calls -/

/-- A text in which every quote and every parenthesis is closed, and none is closed that is not
open.  Within quotes nothing but the closing quote counts. -/
inductive Closed : Text → Prop where
  | nil : Closed []
  | plain {c : Char} {t : Text} (hq : Text.isQuote c = false) (ho : c ≠ '(') (hc : c ≠ ')') :
      Closed t → Closed (c :: t)
  | quoted {q : Char} {inner t : Text} (hq : Text.isQuote q = true) (hi : q ∉ inner) :
      Closed t → Closed (q :: (inner ++ q :: t))
  | nested {inner t : Text} : Closed inner → Closed t → Closed ('(' :: (inner ++ ')' :: t))

/-- The search for the end of a call passes over a quoted text. -/
lemma closing?_quoted {q : Char} {inner : Text} (hi : q ∉ inner) (depth : Int) (t : Text) :
    closing? depth (some q) (inner ++ q :: t) =
      (closing? depth none t).map fun (before, after) => (inner ++ q :: before, after) := by
  induction inner with
  | nil => simp [closing?]
  | cons c inner ih =>
    obtain ⟨hc, hi⟩ : q ≠ c ∧ q ∉ inner := by simpa using hi
    simp only [List.cons_append, closing?, if_neg (Ne.symm hc), ih hi, Option.map_map]
    rfl

/-- The search for the end of a call passes over a closed text. -/
lemma closing?_closed {t : Text} (ht : Closed t) {depth : Int} (hd : 1 ≤ depth) (rest : Text) :
    closing? depth none (t ++ rest) =
      (closing? depth none rest).map fun (before, after) => (t ++ before, after) := by
  induction ht generalizing depth rest with
  | nil => simp
  | plain hq ho hc _ ih =>
    simp only [List.cons_append, closing?, hq, ho, hc, Bool.false_eq_true, if_false, ih hd,
      Option.map_map]
    rfl
  | quoted hq hi _ ih =>
    simp only [List.cons_append, List.append_assoc, closing?, hq, if_true,
      closing?_quoted hi, ih hd, Option.map_map]
    rfl
  | nested _ _ ihi iht =>
    have hopen : Text.isQuote '(' = false := rfl
    have hclose : Text.isQuote ')' = false := rfl
    have hne : depth + 1 ≠ 1 := by omega
    simp only [List.cons_append, List.append_assoc, closing?, hopen, hclose, Bool.false_eq_true,
      if_false, if_true, ihi (show 1 ≤ depth + 1 by omega), hne, Int.add_sub_cancel,
      iht hd, Option.map_map, show (')' = '(') = False by simp]
    rfl

/-- The arguments of a call end at the parenthesis after a closed text. -/
lemma closing?_arguments {arguments : Text} (ha : Closed arguments) (rest : Text) :
    closing? 1 none (arguments ++ ')' :: rest) = some (arguments, rest) := by
  have hclose : Text.isQuote ')' = false := rfl
  rw [closing?_closed ha (by decide)]
  simp [closing?, hclose]

/-- A text that closes a number of parentheses which are open before it, and besides is closed. -/
inductive Closes : Nat → Text → Prop where
  | closed {t : Text} : Closed t → Closes 0 t
  | close {n : Nat} {s t : Text} : Closed s → Closes n t → Closes (n + 1) (s ++ ')' :: t)

/-- What a closed text can be put after, a text that closes parentheses can. -/
lemma Closes.append {n : Nat} {s t : Text} (h : Closes n t)
    (hs : ∀ t, Closed t → Closed (s ++ t)) : Closes n (s ++ t) := by
  cases h with
  | closed ht => exact .closed (hs _ ht)
  | close ha hb =>
    rw [← List.append_assoc]
    exact .close (hs _ ha) hb

lemma exists_of_map_cons {c : Char} {found : Option (Text × Text)} {before after : Text}
    (h : found.map (fun (x, y) => (c :: x, y)) = some (before, after)) :
    ∃ before₁, before = c :: before₁ ∧ found = some (before₁, after) := by
  obtain ⟨⟨before₁, after₁⟩, hfound, he⟩ := Option.map_eq_some_iff.1 h
  obtain ⟨rfl, rfl⟩ : c :: before₁ = before ∧ after₁ = after := by simpa using he
  exact ⟨before₁, rfl, hfound⟩

/-- A quoted text ends at the next quote of its kind. -/
lemma of_closing?_quoted {q : Char} {depth : Int} {t before after : Text}
    (h : closing? depth (some q) t = some (before, after)) :
    ∃ inner t' before', q ∉ inner ∧ t = inner ++ q :: t' ∧ before = inner ++ q :: before' ∧
      closing? depth none t' = some (before', after) := by
  induction t generalizing before with
  | nil => simp [closing?] at h
  | cons c t ih =>
    rw [closing?] at h
    obtain ⟨before₁, rfl, hnext⟩ := exists_of_map_cons h
    by_cases hc : c = q
    · subst hc
      rw [if_pos rfl] at hnext
      exact ⟨[], t, before₁, by simp, rfl, rfl, hnext⟩
    · rw [if_neg hc] at hnext
      obtain ⟨inner, t', before', hi, rfl, rfl, hrest⟩ := ih hnext
      exact ⟨c :: inner, t', before', by simp [Ne.symm hc, hi], rfl, rfl, hrest⟩

/-- What stands before the parenthesis that is found closes all those that are open besides. -/
lemma closes_of_closing? {n : Nat} {t before after : Text}
    (h : closing? (n + 1) none t = some (before, after)) : Closes n before := by
  -- The text after a quoted one is not the tail, so the induction is on the length.
  induction hlen : t.length using Nat.strongRecOn generalizing n t before with
  | _ len ih =>
    cases t with
    | nil => simp [closing?] at h
    | cons c t =>
      have hshort : t.length < len := by simp [← hlen]
      simp only [closing?] at h
      split at h
      · rename_i hq
        obtain ⟨before₁, rfl, hnext⟩ := exists_of_map_cons h
        obtain ⟨inner, t', before', hi, rfl, rfl, hrest⟩ := of_closing?_quoted hnext
        have hlt : t'.length < len := by
          rw [List.length_append, List.length_cons] at hshort
          omega
        have hquoted := (ih _ hlt hrest rfl).append (s := c :: (inner ++ [c]))
          fun s hs => by simpa using Closed.quoted hq hi hs
        simpa using hquoted
      · rename_i hq
        split at h
        · rename_i hopen
          obtain ⟨before₁, rfl, hnext⟩ := exists_of_map_cons h
          obtain ⟨_, -⟩ | ⟨hs, ht⟩ := ih _ hshort (n := n + 1) hnext rfl
          rename_i s t'
          have hnested := ht.append (s := '(' :: (s ++ [')']))
            fun t ht => by simpa using Closed.nested hs ht
          simpa [hopen] using hnested
        · rename_i hopen
          split at h
          · rename_i hclose
            split at h
            · rename_i hdepth
              obtain rfl : n = 0 := by omega
              obtain ⟨rfl, rfl⟩ : [] = before ∧ t = after := by simpa using h
              exact .closed .nil
            · rename_i hdepth
              obtain ⟨before₁, rfl, hnext⟩ := exists_of_map_cons h
              obtain ⟨k, rfl⟩ : ∃ k, n = k + 1 := ⟨n - 1, by omega⟩
              have hk : (((k + 1 : Nat) : Int) + 1 - 1) = (k : Int) + 1 := by omega
              rw [hk] at hnext
              rw [hclose]
              exact .close .nil (ih _ hshort hnext rfl)
          · rename_i hclose
            obtain ⟨before₁, rfl, hnext⟩ := exists_of_map_cons h
            exact (ih _ hshort hnext rfl).append (s := [c]) fun t ht =>
              .plain (Bool.not_eq_true _ ▸ hq) hopen hclose ht

/-- The text before the end of a call is closed. -/
lemma closed_of_closing? {t before after : Text} (h : closing? 1 none t = some (before, after)) :
    Closed before := by
  obtain ⟨hclosed⟩ := closes_of_closing? (n := 0) h
  exact hclosed

/-- A call is read up to the end of its arguments. -/
lemma readOperand_call {functions : FunctionRegistry} {source name carried arguments rest : Text}
    {kind : FunctionKind} (hf : functions.create name = .ok (some (carried, kind)))
    (ha : Closed arguments) :
    readOperand functions source name ('(' :: (arguments ++ ')' :: rest)) =
      .ok (.call { name := carried, kind, arguments := splitArguments arguments }, rest) := by
  simp only [readOperand, hf, closing?_arguments ha]

lemma readOperand_value {functions : FunctionRegistry} {source w after : Text}
    (hf : functions.create w = .ok none) :
    readOperand functions source w after = .ok (.value w, after) := by
  simp only [readOperand, hf]

end Stencil.Condition
