import Stencil.Proofs.Condition.Height
import Stencil.Proofs.Condition.Layout

/-!
# Nothing is lost in compilation

Any text whatever can be given as a condition, with operators and operands in any order and
parentheses that match nothing.  This file says what compilation makes of the pieces of such a text.

`Scanned` cuts a text into pieces: operators, words, and calls with their arguments.  A text can be
cut in one way at most, and the scanner finds it (`scanned_iff`).  The arrangement then moves
operators and drops parentheses, and does no more than that: operands stay in their order, each with
its own marker, operators stay in their number, and of the parentheses those that are never closed
are left.  All this is read off what the arrangement does with one instruction (`Shifts`).

The main statement is `compile_conserves`.  Its last part is about evaluation: as markers take the
operands one after the other (`waiting_of_steps`), a run of a compiled condition never comes to a
marker that has no operand (`exists_waiting`).
-/

namespace Stencil.Condition

open Script (MayEnd mayEnd_bind_ok Exchange EndsAfter)

/-! ## Pieces of a text -/

/-- The pieces of a text: operators, and leaves that are spelled by words or calls.  A word goes on
to the next operator or to the end of the text; after a call anything may follow. -/
inductive Scanned (functions : FunctionRegistry) : Text → List Token → Prop where
  | nil : Scanned functions [] []
  | operator {c : Char} {s : Symbol} {rest : Text} {row : List Token}
      (hc : Symbol.operator? c = some s) :
      Scanned functions rest row → Scanned functions (c :: rest) (.operator s :: row)
  | leaf {l : Leaf} {spelling rest : Text} {row : List Token} (hl : Spells functions l spelling)
      (hend : IsWord spelling → EndsWord rest) :
      Scanned functions rest row → Scanned functions (spelling ++ rest) (l.token :: row)

section Scanning

variable {functions : FunctionRegistry} {source t : Text} {row : List Token}

/-- The scanner finds the pieces of a text. -/
lemma Scanned.tokensOf (h : Scanned functions t row) (source : Text) :
    tokensOf functions source t = .ok row := by
  induction h with
  | nil => exact tokensOf_nil functions source
  | operator hc _ ih =>
    rw [tokensOf_operator functions source hc, ih]
    rfl
  | leaf hl hend _ ih =>
    rw [hl.tokensOf source hend, ih]
    rfl

/-- The word that a text starts with, if it does not start with an operator. -/
lemma isWord_splitWord {c : Char} (hc : Symbol.operator? c = none) (t : Text) :
    IsWord (splitWord (c :: t)).1 ∧ EndsWord (splitWord (c :: t)).2 := by
  have hplain : (!Symbol.isOperatorChar c) = true := by simp [Symbol.isOperatorChar, hc]
  refine ⟨⟨?_, ?_⟩, ?_⟩
  · simp [splitWord, hplain]
  · intro d hd
    have hplain := List.all_eq_true.1 List.all_takeWhile d hd
    simpa [Symbol.isOperatorChar] using hplain
  · intro d hd
    have hstop := List.head?_dropWhile_not (!Symbol.isOperatorChar ·) (c :: t)
    rw [splitWord, Option.mem_def] at hd
    rw [hd] at hstop
    simpa [Symbol.isOperatorChar] using hstop

/-- A word and what the reading of its operand takes of the text after it are the spelling of a
leaf. -/
lemma spells_of_readOperand {w after rest : Text} {o : Operand} (hw : IsWord w)
    (hb : keyword? w = none) (hend : EndsWord after)
    (h : readOperand functions source w after = .ok (o, rest)) :
    ∃ l spelling, Spells functions l spelling ∧ l.token = .operand o ∧
      w ++ after = spelling ++ rest ∧ (IsWord spelling → EndsWord rest) := by
  unfold readOperand at h
  split at h
  · simp at h
  · rename_i hf
    obtain ⟨rfl, rfl⟩ : .value w = o ∧ after = rest := by simpa using h
    exact ⟨_, _, .value hw hb hf, rfl, rfl, fun _ => hend⟩
  · rename_i carried kind hf
    split at h
    · rename_i inner
      split at h
      · rename_i arguments after' hclose
        obtain ⟨rfl, rfl⟩ :
            .call { name := carried, kind, arguments := splitArguments arguments } = o ∧
              after' = rest := by simpa using h
        -- A call ends with a parenthesis and so is no word: it may stand before any character.
        have hparen : ¬ IsWord (w ++ '(' :: (arguments ++ [')'])) := by
          intro hword
          have := hword.plain '(' (by simp)
          exact absurd this (by decide)
        refine ⟨_, _, .call hw hb hf (closed_of_closing? hclose), rfl, ?_,
          fun h => absurd h hparen⟩
        rw [← append_of_closing? hclose]
        simp
      · simp at h
    · simp at h

/-- What the scanner finds are the pieces of the text. -/
lemma scanned_of_tokensOf (h : tokensOf functions source t = .ok row) :
    Scanned functions t row := by
  -- One piece for each case that goes on; the others are faults.
  fun_induction tokensOf functions source t generalizing row with
  | case1 =>
    obtain rfl : [] = row := by simpa using h
    exact .nil
  | case2 c rest s hc tokens htokens ih =>
    obtain rfl : .operator s :: tokens = row := by simpa using h
    exact .operator hc (ih htokens)
  | case3 => simp at h
  | case4 c rest hc word b hb tokens htokens =>
    rename_i ih
    obtain rfl : .keyword b :: tokens = row := by simpa using h
    obtain ⟨hw, hend⟩ := isWord_splitWord hc rest
    have hpiece := Scanned.leaf (.keyword hw hb) (fun _ => hend) (ih htokens)
    rwa [splitWord_append] at hpiece
  | case5 => simp at h
  | case6 c rest hc word hb o after ho tokens htokens =>
    rename_i ih
    obtain rfl : .operand o :: tokens = row := by simpa using h
    obtain ⟨hw, hend⟩ := isWord_splitWord hc rest
    obtain ⟨l, spelling, hl, htoken, htext, hends⟩ := spells_of_readOperand hw hb hend ho
    rw [← splitWord_append (c :: rest), htext, ← htoken]
    exact .leaf hl hends (ih htokens)
  | case7 => simp at h
  | case8 => simp at h

/-- The pieces of a text are what the scanner finds. -/
lemma scanned_iff (source : Text) :
    Scanned functions t row ↔ tokensOf functions source t = .ok row :=
  ⟨fun h => h.tokensOf source, scanned_of_tokensOf⟩

end Scanning

/-! ## One instruction -/

/-- What the arrangement does with one instruction: the stack before it, what goes to the output,
and the stack after it.  An operator sends out what binds more tightly, a closing parenthesis all
that waits since the opening one, and no opening parenthesis is ever sent out. -/
inductive Shifts : Symbol → List Symbol → List Symbol → List Symbol → Prop where
  | operand {s : Symbol} (hs : s.isOperand = true) (stack : List Symbol) : Shifts s stack [s] stack
  | opening (stack : List Symbol) : Shifts .leftParen stack [] (.leftParen :: stack)
  | closing {out : List Symbol} (hout : .leftParen ∉ out) (stack : List Symbol) :
      Shifts .rightParen (out ++ .leftParen :: stack) out stack
  | unmatched {out : List Symbol} (hout : .leftParen ∉ out) : Shifts .rightParen out out []
  | operator {s : Symbol} {out : List Symbol} (hs : s.isOperand = false) (hopening : s ≠ .leftParen)
      (hclosing : s ≠ .rightParen) (hout : .leftParen ∉ out) (stack : List Symbol) :
      Shifts s (out ++ stack) out (s :: stack)

/-- An operator that is no parenthesis sends out no opening parenthesis. -/
lemma leftParen_notMem_tighter {s : Symbol} (hs : 1 < s.precedence) (stack : List Symbol) :
    .leftParen ∉ tighter s stack := by
  intro h
  have htight := List.all_eq_true.1 List.all_takeWhile _ h
  have hprec : s.precedence ≤ Symbol.leftParen.precedence := of_decide_eq_true htight
  have hone : Symbol.leftParen.precedence = 1 := rfl
  omega

/-- The stack as a closing parenthesis finds it: either there is an opening one, or all of it
waits. -/
lemma shifts_rightParen (stack : List Symbol) :
    Shifts .rightParen stack (stack.takeWhile (· != .leftParen))
      (stack.dropWhile (· != .leftParen)).tail := by
  have hout : Symbol.leftParen ∉ stack.takeWhile (· != .leftParen) := by
    intro h
    simpa using List.all_eq_true.1 List.all_takeWhile _ h
  have hsplit := List.takeWhile_append_dropWhile (p := (· != Symbol.leftParen)) (l := stack)
  cases hdrop : stack.dropWhile (· != .leftParen) with
  | nil =>
    rw [hdrop, List.append_nil] at hsplit
    rw [hsplit] at hout ⊢
    exact .unmatched hout
  | cons a rest =>
    have hstop := List.head?_dropWhile_not (· != Symbol.leftParen) stack
    obtain rfl : a = .leftParen := by simpa [hdrop] using hstop
    have hshifts := Shifts.closing hout rest
    rw [← hdrop, hsplit] at hshifts
    exact hshifts

/-- An operator that is no parenthesis sends out what binds more tightly. -/
lemma shifts_operator {s : Symbol} (hprec : 1 < s.precedence) (hs : s.isOperand = false)
    (hopening : s ≠ .leftParen) (hclosing : s ≠ .rightParen) (stack : List Symbol) :
    Shifts s stack (tighter s stack) (s :: looser s stack) := by
  have hshifts := Shifts.operator hs hopening hclosing (leftParen_notMem_tighter hprec stack)
    (looser s stack)
  have hsplit : tighter s stack ++ looser s stack = stack := List.takeWhile_append_dropWhile
  rwa [hsplit] at hshifts

/-- The arrangement shifts. -/
lemma exists_shifts (s : Symbol) (stack : List Symbol) :
    ∃ out stack', Shifts s stack out stack' ∧
      ∀ row, arrange stack (s :: row) = out ++ arrange stack' row := by
  cases s with
  | yes => exact ⟨_, _, .operand rfl stack, fun _ => rfl⟩
  | no => exact ⟨_, _, .operand rfl stack, fun _ => rfl⟩
  | operand => exact ⟨_, _, .operand rfl stack, fun _ => rfl⟩
  | leftParen => exact ⟨_, _, .opening stack, fun _ => rfl⟩
  | rightParen => exact ⟨_, _, shifts_rightParen stack, fun _ => rfl⟩
  | _ =>
    exact ⟨_, _, shifts_operator (by decide) rfl (by decide) (by decide) stack, fun _ => rfl⟩

/-- How many parentheses are open after an instruction. -/
def Symbol.depthAfter (n : Nat) : Symbol → Nat
  | .leftParen => n + 1
  | .rightParen => n - 1
  | _ => n

lemma Symbol.depthAfter_of_ne {s : Symbol} (hopening : s ≠ .leftParen) (hclosing : s ≠ .rightParen)
    (n : Nat) : s.depthAfter n = n := by
  cases s <;> first | rfl | contradiction

namespace Shifts

variable {s : Symbol} {stack out stack' : List Symbol}

/-- No opening parenthesis is sent out. -/
lemma leftParen_notMem (h : Shifts s stack out stack') : .leftParen ∉ out := by
  cases h with
  | operand hs stack =>
    rw [List.mem_singleton]
    rintro rfl
    exact absurd hs (by decide)
  | opening stack => exact List.not_mem_nil
  | closing hout stack => exact hout
  | unmatched hout => exact hout
  | operator hs _ _ hout stack => exact hout

/-- The opening parentheses on the stack are those that are open. -/
lemma count_leftParen (h : Shifts s stack out stack') :
    stack'.count .leftParen = s.depthAfter (stack.count .leftParen) := by
  cases h with
  | operand hs stack =>
    rw [Symbol.depthAfter_of_ne]
    · rintro rfl
      exact absurd hs (by decide)
    · rintro rfl
      exact absurd hs (by decide)
  | opening stack => rw [Symbol.depthAfter, List.count_cons_self]
  | closing hout stack => simp [Symbol.depthAfter, List.count_eq_zero.2 hout]
  | unmatched hout => simp [Symbol.depthAfter, List.count_eq_zero.2 hout]
  | operator hs hopening hclosing hout stack =>
    rw [Symbol.depthAfter_of_ne hopening hclosing, List.count_cons_of_ne hopening,
      List.count_append, List.count_eq_zero.2 hout, Nat.zero_add]

end Shifts

/-! ## The whole row -/

/-- The opening parentheses of a row that are never closed, besides `n` open ones before it.  A
closing parenthesis without an opening one counts for nothing. -/
def unclosed (n : Nat) : List Symbol → Nat
  | [] => n
  | .leftParen :: row => unclosed (n + 1) row
  | .rightParen :: row => unclosed (n - 1) row
  | _ :: row => unclosed n row

lemma unclosed_cons (n : Nat) (s : Symbol) (row : List Symbol) :
    unclosed n (s :: row) = unclosed (s.depthAfter n) row := by
  cases s <;> rfl

/-- Apart from parentheses every instruction comes out as often as it goes in. -/
lemma count_arrange {s : Symbol} (hopening : s ≠ .leftParen) (hclosing : s ≠ .rightParen)
    (stack row : List Symbol) :
    (arrange stack row).count s = stack.count s + row.count s := by
  induction row generalizing stack with
  | nil => rfl
  | cons a row ih =>
    obtain ⟨out, stack', hshifts, hgo⟩ := exists_shifts a stack
    have hshift : out.count s + stack'.count s = stack.count s + [a].count s := by
      cases hshifts with
      | operand ha stack => rw [Nat.add_comm]
      | opening stack => simp [List.count_cons_of_ne hopening.symm]
      | closing hout stack =>
        simp [List.count_cons_of_ne hopening.symm, List.count_cons_of_ne hclosing.symm]
      | unmatched hout => simp [List.count_cons_of_ne hclosing.symm]
      | operator ha _ _ hout stack =>
        rw [List.count_append, List.count_cons, List.count_singleton, Nat.add_assoc]
    rw [hgo, List.count_append, ih, ← Nat.add_assoc, hshift, Nat.add_assoc, ← List.count_append]
    rfl

/-- Operands come out in the order in which they go in. -/
lemma filter_arrange {stack : List Symbol} (hstack : ∀ s ∈ stack, s.isOperand = false)
    (row : List Symbol) :
    (arrange stack row).filter Symbol.isOperand = row.filter Symbol.isOperand := by
  have hnone : ∀ {out : List Symbol}, (∀ s ∈ out, s.isOperand = false) →
      out.filter Symbol.isOperand = [] := by
    intro out hout
    rw [List.filter_eq_nil_iff]
    intro s hs
    rw [hout s hs]
    exact Bool.false_ne_true
  -- The stack never has operands on it, so what it gives out in a step has none either.
  induction row generalizing stack with
  | nil => exact hnone hstack
  | cons a row ih =>
    obtain ⟨out, stack', hshifts, hgo⟩ := exists_shifts a stack
    have hshift : out.filter Symbol.isOperand = [a].filter Symbol.isOperand ∧
        ∀ s ∈ stack', s.isOperand = false := by
      cases hshifts with
      | operand ha stack => exact ⟨rfl, hstack⟩
      | opening stack => exact ⟨rfl, List.forall_mem_cons.2 ⟨rfl, hstack⟩⟩
      | closing hout stack =>
        obtain ⟨ho, hs⟩ := List.forall_mem_append.1 hstack
        exact ⟨hnone ho, (List.forall_mem_cons.1 hs).2⟩
      | unmatched hout => exact ⟨hnone hstack, by simp⟩
      | operator ha _ _ hout stack =>
        obtain ⟨ho, hs⟩ := List.forall_mem_append.1 hstack
        rw [hnone ho, hnone (List.forall_mem_singleton.2 ha)]
        exact ⟨rfl, List.forall_mem_cons.2 ⟨ha, hs⟩⟩
    rw [hgo, List.filter_append, ih hshift.2, hshift.1, ← List.filter_append]
    rfl

/-- No closing parenthesis comes out. -/
lemma rightParen_notMem_arrange {stack : List Symbol} (hstack : .rightParen ∉ stack)
    (row : List Symbol) : .rightParen ∉ arrange stack row := by
  induction row generalizing stack with
  | nil => exact hstack
  | cons a row ih =>
    obtain ⟨out, stack', hshifts, hgo⟩ := exists_shifts a stack
    have hshift : .rightParen ∉ out ∧ .rightParen ∉ stack' := by
      cases hshifts with
      | operand ha stack =>
        refine ⟨?_, hstack⟩
        rw [List.mem_singleton]
        rintro rfl
        exact absurd ha (by decide)
      | opening stack => simpa using hstack
      | closing hout stack => simpa using hstack
      | unmatched hout => simpa using hstack
      | operator ha _ hclosing hout stack => simpa [hclosing.symm] using hstack
    rw [hgo, List.mem_append, not_or]
    exact ⟨hshift.1, ih hshift.2⟩

/-- The opening parentheses that come out are those that are never closed. -/
lemma count_leftParen_arrange (stack row : List Symbol) :
    (arrange stack row).count .leftParen = unclosed (stack.count .leftParen) row := by
  induction row generalizing stack with
  | nil => rfl
  | cons a row ih =>
    obtain ⟨out, stack', hshifts, hgo⟩ := exists_shifts a stack
    rw [hgo, List.count_append, List.count_eq_zero.2 hshifts.leftParen_notMem, Nat.zero_add, ih,
      hshifts.count_leftParen, unclosed_cons]

/-! ## Conservation -/

namespace Token

/-- Whether a token is a leaf of a condition. -/
def isLeaf : Token → Bool
  | .operator _ => false
  | .keyword _ | .operand _ => true

end Token

/-- The leaves that the operands of a row of instructions stand for, the markers taking theirs from
a list in turn. -/
def leaves : List Symbol → List Operand → List Token
  | .yes :: code, operands => .keyword true :: leaves code operands
  | .no :: code, operands => .keyword false :: leaves code operands
  | .operand :: code, o :: operands => .operand o :: leaves code operands
  | _ :: code, operands => leaves code operands
  | [], _ => []

/-- A program that has all of a row of tokens in it, and nothing else. -/
structure Program.Conserves (p : Program) (row : List Token) : Prop where
  /-- The operands of the code are those of the row and stand in the same order, and the operand
  that a marker is given is the one at the marker's place in the row. -/
  leaves_eq : leaves p.code p.operands = row.filter Token.isLeaf
  operands_eq : p.operands = row.filterMap Token.operand?
  /-- There are as many markers as operands. -/
  markers : p.code.count .operand = p.operands.length
  /-- Operators occur in the code as often as in the row. -/
  operators : ∀ s : Symbol, s.isOperand = false → s ≠ .leftParen → s ≠ .rightParen →
    p.code.count s = (row.map Token.symbol).count s
  no_rightParen : .rightParen ∉ p.code
  /-- Opening parentheses occur in the code as often as there are unmatched ones in the row. -/
  leftParens : p.code.count .leftParen = unclosed 0 (row.map Token.symbol)

/-- Leaves are a matter of operands alone. -/
lemma leaves_filter (code : List Symbol) (operands : List Operand) :
    leaves (code.filter Symbol.isOperand) operands = leaves code operands := by
  induction code generalizing operands with
  | nil => rfl
  | cons s code ih =>
    rw [List.filter_cons]
    cases s with
    | operand =>
      cases operands with
      | nil => exact ih []
      | cons o operands => exact congrArg _ (ih operands)
    | yes => exact congrArg _ (ih operands)
    | no => exact congrArg _ (ih operands)
    | _ => exact ih operands

section Rows

variable {row : List Token} (hrow : ∀ s, .operator s ∈ row → s.isOperand = false)

include hrow

/-- The leaves of a row are found in it as it stands. -/
lemma leaves_row :
    leaves (row.map Token.symbol) (row.filterMap Token.operand?) = row.filter Token.isLeaf := by
  induction row with
  | nil => rfl
  | cons token row ih =>
    have ih := ih fun s hs => hrow s (List.mem_cons_of_mem _ hs)
    rw [List.map_cons, List.filterMap_cons, List.filter_cons]
    cases token with
    | operator s =>
      have hs := hrow s List.mem_cons_self
      cases s <;> first | exact ih | cases hs
    | keyword b => cases b <;> exact congrArg _ ih
    | operand o => exact congrArg _ ih

lemma count_operand_row :
    (row.map Token.symbol).count .operand = (row.filterMap Token.operand?).length := by
  induction row with
  | nil => rfl
  | cons token row ih =>
    have ih := ih fun s hs => hrow s (List.mem_cons_of_mem _ hs)
    rw [List.map_cons, List.filterMap_cons]
    cases token with
    | operator s =>
      have hs : s ≠ .operand := by
        rintro rfl
        exact absurd (hrow _ List.mem_cons_self) (by decide)
      rw [Token.symbol, List.count_cons_of_ne hs]
      exact ih
    | keyword b =>
      cases b
      · exact ih
      · exact ih
    | operand o =>
      rw [Token.symbol, List.count_cons_self]
      exact congrArg (· + 1) ih

/-- The program of a row has all of it. -/
lemma conserves_ofTokens (source : Text) : (Program.ofTokens source row).Conserves row where
  leaves_eq := by
    rw [Program.ofTokens, ← leaves_filter, filter_arrange (by simp), leaves_filter, leaves_row hrow]
  operands_eq := rfl
  markers := by
    rw [Program.ofTokens, count_arrange (by decide) (by decide), List.count_nil, Nat.zero_add]
    exact count_operand_row hrow
  operators := by
    intro s _ hopening hclosing
    rw [Program.ofTokens, count_arrange hopening hclosing, List.count_nil, Nat.zero_add]
  no_rightParen := rightParen_notMem_arrange (by simp) _
  leftParens := count_leftParen_arrange [] _

end Rows

/-- The operators of a scanned row are operators. -/
lemma Scanned.isOperand_eq_false {functions : FunctionRegistry} {t : Text} {row : List Token}
    (h : Scanned functions t row) : ∀ s, .operator s ∈ row → s.isOperand = false := by
  induction h with
  | nil => simp
  | @operator c s rest row hc _ ih =>
    intro s' hs'
    rcases List.mem_cons.1 hs' with hs' | hs'
    · obtain rfl : s' = s := by simpa using hs'
      have hfound := List.find?_some hc
      simpa using (Bool.and_eq_true_iff.1 hfound).1
    · exact ih s' hs'
  | @leaf l spelling rest row hl hend _ ih =>
    intro s' hs'
    rcases List.mem_cons.1 hs' with hs' | hs'
    · cases l <;> cases hs'
    · exact ih s' hs'

/-! ## Markers in evaluation -/

section Markers

variable {p : Program} {resolver : Resolver} {m m' : Machine}

/-- Each marker takes the first of the operands in waiting. -/
lemma Moves.waiting {s : Symbol} (h : Moves s m m') :
    m'.waiting = m.waiting.drop ([s].count .operand) := by
  cases h with
  | truth b m => cases b <;> rfl
  | take o stack waiting => rfl
  | paren hs m => rcases hs with rfl | rfl <;> rfl
  | negate o stack waiting hr => rfl
  | join c right left stack waiting hr => cases c <;> rfl

/-- The markers of a run take the operands in waiting one after the other. -/
lemma waiting_of_steps {code : List Symbol} (h : MayEnd (p.steps resolver code m) (.ok m')) :
    m'.waiting = m.waiting.drop (code.count .operand) := by
  induction code generalizing m with
  | nil =>
    obtain rfl : m' = m := by simpa [Program.steps] using h
    rfl
  | cons s code ih =>
    rw [Program.steps, mayEnd_bind_ok] at h
    obtain ⟨m₁, hstep, hrest⟩ := h
    have hcount : (s :: code).count .operand = [s].count .operand + code.count .operand := by
      rw [← List.singleton_append, List.count_append]
    rw [ih hrest, (moves_of_step hstep).waiting, List.drop_drop, hcount]

section Marked

variable (hp : p.code.count .operand = p.operands.length)

include hp

/-- Where there are as many operands as markers, a marker finds the operand that has its place. -/
lemma exists_waiting {before after : List Symbol} (hcode : p.code = before ++ .operand :: after)
    (h : MayEnd (p.steps resolver before (Machine.start p)) (.ok m)) :
    ∃ o waiting, m.waiting = o :: waiting ∧ p.operands[before.count .operand]? = some o := by
  rw [hcode, List.count_append, List.count_cons_self] at hp
  have hplace : before.count .operand < p.operands.length := by omega
  have hstart : (Machine.start p).waiting = p.operands := rfl
  refine ⟨p.operands[before.count .operand], p.operands.drop (before.count .operand + 1), ?_,
    List.getElem?_eq_getElem hplace⟩
  rw [waiting_of_steps h, hstart, List.drop_eq_getElem_cons hplace]

lemma evaluate_error_of_markers {exchanges : List Exchange} {e : Failure}
    (h : EndsAfter (p.evaluate resolver) exchanges (.error e)) :
    p.ValueFailure resolver exchanges e ∨ e = p.fault .underflow ∨ e = p.fault .leftover := by
  rcases Program.evaluate_error h with h | ⟨before, s, after, m, hcode, hbefore, hnone, he⟩ |
      ⟨m, -, -, he⟩
  · exact .inl h
  · rcases he with he | ⟨rfl, rfl⟩
    · exact .inr (.inl he)
    · obtain ⟨o, waiting, hwaiting, -⟩ := exists_waiting hp hcode hbefore
      simp [Machine.load, hwaiting, Load.after?] at hnone
  · exact .inr he

end Marked

end Markers

/-- **Compilation loses nothing and adds nothing**, whatever the condition is.  If it succeeds, then
the source can be cut into pieces in exactly one way, and the program has these pieces: operands in
their order, each with a marker of its own, operators in their number, and of the parentheses the
opening ones that are never closed.  So in every run each marker finds an operand, the one that has
its place, and no evaluation fails for a marker without one: it can fail for the operand that was
asked last, which failed in this way itself, for a text or a number, for operators without operands,
and at the end for operands without operators. -/
theorem compile_conserves {functions : FunctionRegistry} {condition : Option Text} {p : Program}
    (h : Program.compile functions condition = .ok p) :
    p.source = Text.withoutBlanks (condition.getD ['f', 'a', 'l', 's', 'e']) ∧
      (∃ row, (∀ row', Scanned functions p.source row' ↔ row' = row) ∧ p.Conserves row) ∧
      ∀ resolver,
        (∀ before after m, p.code = before ++ .operand :: after →
          MayEnd (p.steps resolver before (Machine.start p)) (.ok m) →
          ∃ o waiting, m.waiting = o :: waiting ∧
            p.operands[before.count .operand]? = some o) ∧
        ∀ exchanges e, EndsAfter (p.evaluate resolver) exchanges (.error e) →
          p.ValueFailure resolver exchanges e ∨ e = p.fault .underflow ∨
            e = p.fault .leftover := by
  simp only [Program.compile] at h
  split at h
  · rename_i row hrow
    obtain rfl := Except.ok.inj h
    have hscanned := scanned_of_tokensOf hrow
    have hconserves := conserves_ofTokens hscanned.isOperand_eq_false
      (Text.withoutBlanks (condition.getD ['f', 'a', 'l', 's', 'e']))
    refine ⟨rfl, ⟨row, fun row' => ?_, hconserves⟩, fun resolver =>
      ⟨fun before after m => exists_waiting hconserves.markers, fun exchanges e =>
        evaluate_error_of_markers hconserves.markers⟩⟩
    rw [scanned_iff (Text.withoutBlanks (condition.getD ['f', 'a', 'l', 's', 'e'])),
      Program.ofTokens, hrow, Except.ok.injEq, eq_comm]
  · cases h

/-- The pieces of `a)&((!f(b|c)TRUE`, in which three parentheses match nothing. -/
def strayRow : List Token :=
  [.operand (.value ['a']), .operator .rightParen, .operator .both, .operator .leftParen,
   .operator .leftParen, .operator .negate,
   .operand (.call
    { name := ['f'], kind := { className := ['F'], truth := fun _ _ => pure true },
      arguments := [['b', '|', 'c']] }),
   .keyword true]

lemma scanned_strayRow : Scanned constantFunctions "a)&((!f(b|c)TRUE".toList strayRow := by
  have harguments : Closed ['b', '|', 'c'] := .plain rfl (by decide) (by decide)
    (.plain rfl (by decide) (by decide) (.plain rfl (by decide) (by decide) .nil))
  have hcall : Spells constantFunctions (.operand (.call
      { name := ['f'], kind := { className := ['F'], truth := fun _ _ => pure true },
        arguments := [['b', '|', 'c']] })) "f(b|c)".toList :=
    .call (show IsWord ['f'] by decide) rfl rfl harguments
  have htrue : Spells constantFunctions (.truth true) ['T', 'R', 'U', 'E'] :=
    .keyword (by decide) rfl
  have ha : Spells constantFunctions (.operand (.value ['a'])) ['a'] :=
    .value (by decide) rfl rfl
  have hcallEnds : ¬ IsWord "f(b|c)".toList := by decide
  exact .leaf ha (fun _ => endsWord_cons rfl _) (.operator rfl (.operator rfl (.operator rfl
    (.operator rfl (.operator rfl (.leaf hcall (fun h => absurd h hcallEnds)
      (.leaf htrue (fun _ => endsWord_nil) .nil)))))))

/-- The program with these pieces. -/
def strayProgram : Program := .ofTokens "a)&((!f(b|c)TRUE".toList strayRow

/-- A condition with parentheses that match nothing, a negation and a call, and two leaves next to
one another: all of it is in the program, and its second marker finds its second operand. -/
theorem compile_conserves_stray :
    Program.compile constantFunctions (some " a)&((!f(b | c) TRUE".toList) = .ok strayProgram ∧
      strayProgram.code = [.operand, .operand, .yes, .negate, .leftParen, .leftParen, .both] ∧
      (∃ row, (∀ row', Scanned constantFunctions strayProgram.source row' ↔ row' = row) ∧
        strayProgram.Conserves row) ∧
      ∀ resolver m,
        MayEnd (strayProgram.steps resolver [.operand] (Machine.start strayProgram)) (.ok m) →
        ∃ o waiting, m.waiting = o :: waiting ∧ strayProgram.operands[1]? = some o := by
  have hcompile :
      Program.compile constantFunctions (some " a)&((!f(b | c) TRUE".toList) = .ok strayProgram := by
    have htext : Text.withoutBlanks " a)&((!f(b | c) TRUE".toList = "a)&((!f(b|c)TRUE".toList := by
      decide
    simp only [Program.compile, Option.getD_some, htext, scanned_strayRow.tokensOf, strayProgram]
  obtain ⟨-, hrow, hruns⟩ := compile_conserves hcompile
  exact ⟨hcompile, rfl, hrow, fun resolver m => (hruns resolver).1 [.operand] _ m rfl⟩

end Stencil.Condition
