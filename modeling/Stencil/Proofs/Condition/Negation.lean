import Mathlib.Logic.Function.Iterate
import Stencil.Proofs.Condition.Layout

/-!
# Adjacent negations

An operator that arrives sends out those that wait and bind as tightly.  That is how connectives
associate to the left, but a `!` does the same to a `!` in front of it, whose operand is still to
come.  So of the `!` that stand in a row only the last negates the operand behind them.  The others
are out before that operand is, and negate what lies on top of the stack at that moment: the operand
on the left of the connective around them, or the `false` at the bottom, for which nothing asks.

`Layout.settled` is the tree that comes of this and `Layout.surplus` counts the negations that
reach the bottom.  The main statement, `evaluate_text`, is that evaluation of a written condition is
evaluation of its settled tree, whatever its negations are.  Where no `!` stands directly before
another, the settled tree is the tree that is written, and every negation is one of its operand; two
of them in a row are not the identity (`evaluate_doubled`).

The proof reuses `Layout.Arranges`: a part of a condition leaves its surplus negations behind in
front of the postorder of its settled tree.
-/

namespace Stencil.Condition

/-! ## Settled trees -/

namespace Layout

variable {functions : FunctionRegistry}

/-- Whether a layout is a negation, without parentheses around it. -/
def isNegation : Layout functions → Bool
  | .negate _ => true
  | _ => false

/-- The negations of a layout that act on what stands before it. -/
def surplus : Layout functions → Nat
  | .leaf _ _ _ => 0
  | .group x => x.surplus
  | .negate x => x.surplus + x.isNegation.toNat
  | .join _ x _ => x.surplus

/-- The tree that a layout is evaluated as.  The surplus negations of what stands on the right of a
connective act on what stands on the left. -/
def settled : Layout functions → Tree
  | .leaf l _ _ => l.tree
  | .group x => x.settled
  | .negate x => if x.isNegation then x.settled else .negate x.settled
  | .join c x y => .join c (Tree.negate^[y.surplus] x.settled) y.settled

/-- Whether a layout has the parentheses that it needs where operators of rank `r` or more may
stand.  Other than in `Fits`, any number of `!` may stand in a row. -/
def Nests : Nat → Layout functions → Prop
  | _, .leaf _ _ _ => True
  | _, .group x => x.Nests 1
  | r, .negate x => r ≤ negateRank ∧ x.Nests negateRank
  | r, .join c x y => r ≤ c.rank ∧ x.Nests c.rank ∧ y.Nests (c.rank + 1)

instance decidableNests : (r : Nat) → (x : Layout functions) → Decidable (x.Nests r)
  | _, .leaf _ _ _ => inferInstanceAs (Decidable True)
  | _, .group x => decidableNests 1 x
  | r, .negate x =>
    have := decidableNests negateRank x
    inferInstanceAs (Decidable (r ≤ negateRank ∧ x.Nests negateRank))
  | r, .join c x y =>
    have := decidableNests c.rank x
    have := decidableNests (c.rank + 1) y
    inferInstanceAs (Decidable (r ≤ c.rank ∧ x.Nests c.rank ∧ y.Nests (c.rank + 1)))

/-- Of a row of negations the last one is a negation of the operand, and the others are surplus. -/
lemma settled_negations {x : Layout functions} (hx : x.isNegation = false) (n : Nat) :
    (Layout.negate^[n + 1] x).settled = .negate x.settled ∧
      (Layout.negate^[n + 1] x).surplus = x.surplus + n := by
  induction n with
  | zero => simp [settled, surplus, hx]
  | succ n ih =>
    have hrow : (Layout.negate^[n + 1] x).isNegation = true := by
      rw [Function.iterate_succ_apply']
      rfl
    rw [Function.iterate_succ_apply', settled, surplus, if_pos hrow, hrow]
    exact ⟨ih.1, by rw [ih.2]; rfl⟩

/-- Without adjacent negations there is no surplus, and a layout is settled as its tree. -/
lemma Fits.settled_eq {x : Layout functions} {r : Nat} (hx : x.Fits r) :
    x.surplus = 0 ∧ x.settled = x.tree := by
  induction x generalizing r with
  | leaf l spelling spells => exact ⟨rfl, rfl⟩
  | group x ih => exact ih hx
  | negate x ih =>
    obtain ⟨-, hfits, hhead⟩ := hx
    obtain ⟨hsurplus, hsettled⟩ := ih hfits
    have hlone : x.isNegation = false := by
      cases x with
      | negate x => simp [text] at hhead
      | _ => rfl
    simp [surplus, settled, tree, hsurplus, hsettled, hlone]
  | join c x y ihx ihy =>
    obtain ⟨-, hx, hy⟩ := hx
    obtain ⟨hsurplusx, hsettledx⟩ := ihx hx
    obtain ⟨hsurplusy, hsettledy⟩ := ihy hy
    simp [surplus, settled, tree, hsurplusx, hsettledx, hsurplusy, hsettledy]

lemma Fits.nests {x : Layout functions} {r : Nat} (hx : x.Fits r) : x.Nests r := by
  induction x generalizing r with
  | leaf l spelling spells => trivial
  | group x ih => exact ih hx
  | negate x ih => exact ⟨hx.1, ih hx.2.1⟩
  | join c x y ihx ihy => exact ⟨hx.1, ihx hx.2.1, ihy hx.2.2⟩

end Layout

/-! ## Arrangement -/

lemma Tree.postorder_negations (t : Tree) (n : Nat) :
    (Tree.negate^[n] t).postorder = t.postorder ++ List.replicate n .negate := by
  induction n with
  | zero => simp
  | succ n ih =>
    rw [Function.iterate_succ_apply', postorder, ih, List.append_assoc, List.replicate_succ']

lemma Tree.operands_negations (t : Tree) (n : Nat) :
    (Tree.negate^[n] t).operands = t.operands := by
  induction n with
  | zero => rfl
  | succ n ih => rw [Function.iterate_succ_apply', operands, ih]

namespace Layout

variable {functions : FunctionRegistry}

/-- The instructions that a layout leaves behind. -/
def code (x : Layout functions) : List Symbol :=
  List.replicate x.surplus .negate ++ x.settled.postorder

/-- A negation sends out the negation right in front of it. -/
lemma Arranges.negate_negate {part code : List Symbol} {r : Nat}
    (h : Arranges r (.negate :: part) code) (hr : r ≤ negateRank) :
    Arranges r (.negate :: .negate :: part) (.negate :: code) := by
  intro stack hstack
  obtain ⟨out, pending, hcode, hpending, hgo⟩ := h stack hstack
  have hlow := hstack.mono hr
  have hnegate : ∀ rest, arrange stack (.negate :: rest) = arrange (.negate :: stack) rest :=
    fun rest => arrange_operator (r := negateRank) rfl (.inl rfl) [] (by simp) hlow rest
  have htwice : ∀ rest, arrange (.negate :: stack) (.negate :: rest) =
      .negate :: arrange (.negate :: stack) rest := by
    have hfirst : ∀ a ∈ [Symbol.negate], 2 ^ negateRank ≤ a.precedence := by decide
    exact fun rest => arrange_operator (r := negateRank) rfl (.inl rfl) [.negate] hfirst hlow rest
  refine ⟨.negate :: out, pending, by rw [← hcode]; rfl, hpending, fun rest => ?_⟩
  calc arrange stack (.negate :: .negate :: part ++ rest)
      = .negate :: arrange stack (.negate :: part ++ rest) := by
        simp only [List.cons_append, hnegate, htwice]
    _ = .negate :: out ++ arrange (pending ++ stack) rest := by rw [hgo, List.cons_append]

/-- What stands behind a `!` and is no negation is a leaf or in parentheses. -/
lemma Nests.above_negate {x : Layout functions} (h : x.Nests negateRank)
    (hx : x.isNegation = false) : x.Nests (negateRank + 1) := by
  cases x with
  | leaf l spelling spells => trivial
  | group x => exact h
  | negate x => simp [isNegation] at hx
  | join c x y => exact absurd h.1 (by have := c.rank_lt_negateRank; omega)

/-- A layout leaves its surplus negations behind and then the postorder of its settled tree. -/
lemma arranges_code {x : Layout functions} {r : Nat} (hx : x.Nests r) :
    Arranges r (x.row.map Token.symbol) x.code := by
  induction x generalizing r with
  | leaf l spelling spells => exact arranges_leaf l
  | group x ih =>
    have hcode : (group x).code = x.code := rfl
    simpa [hcode, row, Token.symbol] using (ih hx).group r
  | negate x ih =>
    obtain ⟨hr, hx⟩ := hx
    -- Two negations in a row are not undone: the first is put out where the second comes, before
    -- anything else.
    cases hnegation : x.isNegation with
    | true =>
      obtain ⟨y, rfl⟩ : ∃ y, x = .negate y := by
        cases x with
        | negate y => exact ⟨y, rfl⟩
        | _ => simp [isNegation] at hnegation
      have hcode : (negate (negate y)).code = .negate :: (negate y).code := by
        simp [code, surplus, settled, hnegation, List.replicate_succ]
      have hy : (negate y).Nests r := ⟨hr, hx.2⟩
      rw [hcode]
      exact (ih hy).negate_negate hr
    | false =>
      have hcode : (negate x).code = x.code ++ [.negate] := by
        simp [code, surplus, settled, hnegation, Tree.postorder]
      rw [hcode]
      exact (ih (hx.above_negate hnegation)).negate hr
  | join c x y ihx ihy =>
    obtain ⟨hr, hx, hy⟩ := hx
    have hcode : (join c x y).code = x.code ++ y.code ++ [c.symbol] := by
      simp [code, surplus, settled, Tree.postorder, Tree.postorder_negations]
    rw [hcode]
    simpa [row, Token.symbol] using (ihx hx).join (ihy hy) hr

lemma arrange_code {x : Layout functions} (hx : x.Nests 1) :
    arrange [] (x.row.map Token.symbol) = x.code := by
  obtain ⟨out, pending, hcode, -, hgo⟩ := arranges_code hx [] (by simp [Looser])
  calc arrange [] (x.row.map Token.symbol)
      = arrange [] (x.row.map Token.symbol ++ []) := by rw [List.append_nil]
    _ = out ++ arrange (pending ++ []) [] := hgo []
    _ = x.code := by rw [← hcode, List.append_nil]; rfl

/-- Settling moves negations and leaves the operands where they are. -/
lemma operands_settled (x : Layout functions) : x.settled.operands = x.tree.operands := by
  induction x with
  | leaf l spelling spells => rfl
  | group x ih => exact ih
  | negate x ih =>
    cases h : x.isNegation <;> simp [settled, tree, h, Tree.operands, ih]
  | join c x y ihx ihy => simp [settled, tree, Tree.operands, Tree.operands_negations, ihx, ihy]

/-- The program of a written condition. -/
def program (x : Layout functions) : Program where
  source := x.text
  code := x.code
  operands := x.settled.operands

lemma compile_program {x : Layout functions} (hx : x.Nests 1) {condition : Text}
    (hcondition : Text.withoutBlanks condition = x.text) :
    Program.compile functions (some condition) = .ok x.program := by
  have htokens : tokensOf functions x.text x.text = .ok x.row := by
    have h := x.tokensOf_text x.text endsWord_nil
    rw [tokensOf_nil, List.append_nil] at h
    simpa [Functor.map, Except.map] using h
  simp only [Program.compile, Option.getD_some, hcondition, htokens, Program.ofTokens,
    arrange_code hx, operands_row, program, operands_settled]

end Layout

/-! ## Evaluation -/

namespace Program

variable (p : Program) (resolver : Resolver)

/-- Negations of a truth value leave a truth value, whatever the resolver is. -/
lemma steps_negations (n : Nat) (b : Bool) (stack waiting : List Operand) :
    p.steps resolver (List.replicate n .negate) { stack := .literal b :: stack, waiting } =
      pure { stack := .literal (Bool.not^[n] b) :: stack, waiting } := by
  induction n generalizing b with
  | zero => rfl
  | succ n ih =>
    simp only [List.replicate_succ, steps, step_negate, Operand.truth, pure_bind, ih,
      Function.iterate_succ_apply]

end Program

/-- The surplus negations of a condition come to nothing: its evaluation is that of its settled
tree. -/
lemma Layout.evaluate_settled {functions : FunctionRegistry} (x : Layout functions)
    (resolver : Resolver) :
    x.program.evaluate resolver = x.settled.evaluate x.program.fault resolver := by
  have hbottom := x.program.steps_negations resolver x.surplus false [] x.settled.operands
  have hrun := x.program.steps_postorder resolver x.settled
    [.literal (Bool.not^[x.surplus] false)] []
  rw [List.append_nil] at hrun
  calc x.program.evaluate resolver
      = x.settled.reduce x.program.fault resolver >>= fun o =>
          x.program.finish resolver
            { stack := [o, .literal (Bool.not^[x.surplus] false)], waiting := [] } := by
        have hcode : x.program.code =
            List.replicate x.surplus .negate ++ x.settled.postorder := rfl
        have hstart : Machine.start x.program =
            { stack := [.literal false], waiting := x.settled.operands } := rfl
        rw [Program.evaluate, hcode, hstart, Program.steps_append, hbottom, pure_bind, hrun]
        simp only [bind_assoc, pure_bind]
    _ = x.settled.evaluate x.program.fault resolver := by
        simp only [Program.finish_single, Tree.evaluate]

lemma Layout.evaluate_condition {functions : FunctionRegistry} {x : Layout functions}
    (hx : x.Nests 1) {condition : Text} (hcondition : Text.withoutBlanks condition = x.text)
    (resolver : Resolver) :
    evaluate functions resolver (some condition) =
      x.settled.evaluate x.program.fault resolver := by
  rw [evaluate, compile_program hx hcondition]
  exact x.evaluate_settled resolver

/-- **Only the last of adjacent negations is one of the operand behind them.**  Evaluating a written
condition is evaluating its settled tree, with the same requests in the same order and the same
truth value or failure.  Where no `!` stands directly before another this is the tree as written,
so that negation is negation wherever it stands; and any number of `!` in a row in front of an
operand, a call or a condition in parentheses is one negation of it. -/
theorem evaluate_text {functions : FunctionRegistry} (x : Layout functions) (hx : x.Nests 1)
    (condition : Text) (hcondition : Text.withoutBlanks condition = x.text) (resolver : Resolver) :
    evaluate functions resolver (some condition) =
        x.settled.evaluate (fun f => .evaluation f x.text (x.code.map Symbol.char)) resolver ∧
      (x.Fits 1 → x.settled = x.tree ∧ x.code = x.tree.postorder) ∧
      ∀ (n : Nat) (e : Layout functions), e.isNegation = false →
        x = Layout.negate^[n + 1] e → x.settled = .negate e.settled := by
  refine ⟨Layout.evaluate_condition hx hcondition _, fun hfits => ?_, fun n e he hrow => ?_⟩
  · obtain ⟨hsurplus, hsettled⟩ := hfits.settled_eq
    rw [Layout.code, hsurplus, hsettled]
    exact ⟨rfl, rfl⟩
  · rw [hrow]
    exact (Layout.settled_negations he n).1

/-- The operand `true`. -/
def trueLayout : Layout [] := .leaf _ ['t', 'r', 'u', 'e'] (.keyword (b := true) (by decide) rfl)

/-- The condition `true&!!true`, whose surplus negation is one of the operand on the left. -/
def guardedLayout : Layout [] := .join .both trueLayout (.negate (.negate trueLayout))

/-- Two adjacent negations on the right of a connective make the condition false, three in front
of an operand are one, and one is one. -/
theorem evaluate_text_guarded :
    guardedLayout.Nests 1 ∧ Text.withoutBlanks "true & !!true".toList = guardedLayout.text ∧
      evaluate [] none (some "true & !!true".toList) = pure false ∧
      (Layout.negate^[3] trueLayout).Nests 1 ∧
      (Layout.negate^[3] trueLayout).settled = .negate (.truth true) ∧
      (Layout.negate trueLayout).Fits 1 ∧
      (Layout.negate trueLayout).settled = .negate (.truth true) := by
  have hguarded : guardedLayout.Nests 1 := by decide
  have htext : Text.withoutBlanks "true & !!true".toList = guardedLayout.text := by decide
  have hthree : (Layout.negate^[3] trueLayout).Nests 1 := by decide
  have hone : (Layout.negate trueLayout).Fits 1 := by decide
  refine ⟨hguarded, htext, ?_, hthree, ?_, hone, ?_⟩
  · rw [(evaluate_text guardedLayout hguarded _ htext none).1]
    rfl
  · exact (evaluate_text _ hthree "!!!true".toList (by decide) none).2.2 2 trueLayout rfl rfl
  · exact ((evaluate_text _ (by decide) "!true".toList (by decide) none).2.1 hone).1

/-- Two adjacent negations are not the identity. -/
theorem evaluate_doubled :
    evaluate [] none (some "true".toList) = pure true ∧
      evaluate [] none (some "!!true".toList) = pure false ∧ Bool.not^[2] true = true := by
  have hnests : (Layout.negate (Layout.negate trueLayout)).Nests 1 := by decide
  refine ⟨?_, ?_, rfl⟩
  · rw [Layout.evaluate_condition (x := trueLayout) trivial (by decide)]
    rfl
  · rw [Layout.evaluate_condition hnests (by decide)]
    rfl

end Stencil.Condition
