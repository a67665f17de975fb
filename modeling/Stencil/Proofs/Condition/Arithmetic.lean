import Stencil.Condition.Builtin
import Stencil.Proofs.Condition.Reading
import Stencil.Proofs.Number.Decimal

/-!
# Integer arithmetic is exact

Operands travel as texts: an operator reads its operands as integers and puts the text of its result
on the stack.  For the two operators of division this makes no difference, and a written expression
comes to its exact value, which `Arithmetic.Comes` says without texts and without a stack.

What carries the induction is that division does not make numbers larger (`Truncates.natAbs_le`).
So the value of an expression has no more digits than the words of the expression may have, and a
text of it is always read back (`Arithmetic.Comes.reduce`).  The main statement is
`evaluate_arithmetic`.
-/

namespace Stencil

/-! ## Division -/

/-- Division that is cut off towards zero: what is left over is smaller than the divisor and has the
sign of the dividend. -/
structure Truncates (dividend divisor quotient remainder : Int) : Prop where
  exact : dividend = divisor * quotient + remainder
  small : remainder.natAbs < divisor.natAbs
  sign : remainder = 0 ∨ remainder.sign = dividend.sign

section Truncates

variable {a b q r : Int}

lemma truncates_tdiv (a : Int) (hb : b ≠ 0) : Truncates a b (a.tdiv b) (a.tmod b) where
  exact := (Int.mul_tdiv_add_tmod a b).symm
  small := by
    rw [Int.natAbs_tmod]
    exact Nat.mod_lt _ (Int.natAbs_pos.2 hb)
  sign := by
    have hsign := Int.sign_tmod a b
    split at hsign
    · exact .inl (Int.sign_eq_zero_iff_zero.1 hsign)
    · exact .inr hsign

lemma Truncates.divisor_ne (h : Truncates a b q r) : b ≠ 0 := by
  rintro rfl
  exact Nat.not_lt_zero _ h.small

/-- There is one quotient and one remainder. -/
lemma Truncates.eq (h : Truncates a b q r) : q = a.tdiv b ∧ r = a.tmod b := by
  have hb := h.divisor_ne
  obtain ⟨hexact, hsmall, hsign⟩ := h
  rw [eq_comm (b := a.tdiv b), eq_comm (b := a.tmod b)]
  rcases Int.le_total 0 a with ha | ha
  · have hr : 0 ≤ r := by
      rcases hsign with rfl | hsign
      · exact Int.le_refl 0
      · exact Int.sign_nonneg_iff.1 (hsign ▸ Int.sign_nonneg_iff.2 ha)
    rw [Int.tdiv_tmod_unique ha hb]
    omega
  · have hr : r ≤ 0 := by
      rcases hsign with rfl | hsign
      · exact Int.le_refl 0
      · exact Int.sign_nonpos_iff.1 (hsign ▸ Int.sign_nonpos_iff.2 ha)
    rw [Int.tdiv_tmod_unique' ha hb]
    omega

lemma Truncates.natAbs_le (h : Truncates a b q r) : q.natAbs ≤ a.natAbs ∧ r.natAbs ≤ a.natAbs := by
  obtain ⟨rfl, rfl⟩ := h.eq
  rw [Int.natAbs_tmod]
  exact ⟨Int.natAbs_tdiv_le_natAbs a b, Nat.mod_le _ _⟩

end Truncates

namespace Condition

/-! ## Words -/

section Words

variable {w : Text} {n : Int} (h : Integer.read w = .ok n)

include h

lemma isWord_of_read : IsWord w where
  nonempty := Integer.ne_nil_of_read h
  plain := Integer.forall_mem_of_read (by decide +kernel) h

/-- The text of an integer spells nothing that has letters in it. -/
lemma spells_eq_false_of_read {keyword : Text} {c : Char} (hc : c ∈ keyword)
    (hletter : c.isLower = true) : Text.spells keyword w = false := by
  have hlower : ∀ d ∈ w, d.toLower.isLower = false :=
    Integer.forall_mem_of_read (by decide +kernel) h
  rw [Text.spells, beq_eq_false_iff_ne]
  rintro rfl
  obtain ⟨d, hd, rfl⟩ := List.mem_map.1 hc
  rw [hlower d hd] at hletter
  cases hletter

lemma keyword?_of_read : keyword? w = none := by
  have ht : Text.spells ['t', 'r', 'u', 'e'] w = false :=
    spells_eq_false_of_read h (c := 't') (by decide) rfl
  have hf : Text.spells ['f', 'a', 'l', 's', 'e'] w = false :=
    spells_eq_false_of_read h (c := 'f') (by decide) rfl
  simp [keyword?, ht, hf]

/-- An integer counts as true. -/
lemma isTrueText_of_read : Value.isTrueText w = true := by
  have hf : Text.spells ['f', 'a', 'l', 's', 'e'] w = false :=
    spells_eq_false_of_read h (c := 'f') (by decide) rfl
  simp [Value.isTrueText, hf, Integer.ne_nil_of_read h]

/-- No built-in function has the name of an integer. -/
lemma create_builtinFunctions_of_read : builtinFunctions.create w = .ok none := by
  have hlower : ∀ d ∈ w, d.isLower = false := Integer.forall_mem_of_read (by decide +kernel) h
  have hnames : ∀ row ∈ builtinFunctions, row.1.any Char.isLower = true := by decide
  cases hfind : builtinFunctions.find? w with
  | none => rw [FunctionRegistry.create, hfind]
  | some factory =>
    obtain ⟨d, hd, hletter⟩ := List.any_eq_true.1 (hnames _ (Table.mem_of_find? hfind))
    rw [hlower d hd] at hletter
    cases hletter

end Words

/-! ## Expressions -/

/-- What an operator gives of a division. -/
inductive Share where
  | quotient
  | remainder
  deriving DecidableEq

namespace Share

/-- The operator. -/
def connective : Share → Connective
  | .quotient => .divide
  | .remainder => .modulus

/-- What the operator gives, where the quotient and the remainder are known. -/
def pick (q r : Int) : Share → Int
  | .quotient => q
  | .remainder => r

/-- What is wrong where the divisor is zero. -/
def fault : Share → EvaluationFault
  | .quotient => .divisionByZero
  | .remainder => .moduloByZero

end Share

/-- A written expression of integers.  A word of it is read as an integer and is no name of a
function. -/
inductive Arithmetic (functions : FunctionRegistry) where
  | word (w : Text) (n : Int) (reads : Integer.read w = .ok n)
      (free : functions.create w = .ok none)
  | group (x : Arithmetic functions)
  | divide (share : Share) (x y : Arithmetic functions)

/-- An operand that is the text of an integer, as written or as an operator has computed it. -/
def Operand.IsInteger (o : Operand) (n : Int) : Prop :=
  ∃ t, (o = .value t ∨ o = .computed t) ∧ Integer.read t = .ok n

namespace Arithmetic

variable {functions : FunctionRegistry}

/-- An expression that is a word.  Among the built-in functions there is none that it could name. -/
abbrev integer (w : Text) (n : Int) (reads : Integer.read w = .ok n) : Arithmetic builtinFunctions :=
  .word w n reads (create_builtinFunctions_of_read reads)

/-- The expression as a condition. -/
def layout : Arithmetic functions → Layout functions
  | .word w _ reads free =>
    .leaf (.operand (.value w)) w (.value (isWord_of_read reads) (keyword?_of_read reads) free)
  | .group x => .group x.layout
  | .divide share x y => .join share.connective x.layout y.layout

/-- The text of an expression. -/
def text (x : Arithmetic functions) : Text := x.layout.text

/-- The exact value of an expression. -/
inductive Comes : Arithmetic functions → Int → Prop where
  | word {w : Text} {n : Int} {reads : Integer.read w = .ok n}
      {free : functions.create w = .ok none} : Comes (.word w n reads free) n
  | group {x : Arithmetic functions} {n : Int} (hx : Comes x n) : Comes (.group x) n
  | divide {share : Share} {x y : Arithmetic functions} {a b q r : Int} (hx : Comes x a)
      (hy : Comes y b) (hdiv : Truncates a b q r) : Comes (.divide share x y) (share.pick q r)

/-- Whether there is a divisor in an expression that comes to zero. -/
inductive DividesByZero : Arithmetic functions → Prop where
  | here {share : Share} {x y : Arithmetic functions} (hy : Comes y 0) :
      DividesByZero (.divide share x y)
  | group {x : Arithmetic functions} (hx : DividesByZero x) : DividesByZero (.group x)
  | left {share : Share} {x y : Arithmetic functions} (hx : DividesByZero x) :
      DividesByZero (.divide share x y)
  | right {share : Share} {x y : Arithmetic functions} (hy : DividesByZero y) :
      DividesByZero (.divide share x y)

variable {x y : Arithmetic functions} {m n : Int}

lemma Comes.unique (hm : x.Comes m) (hn : x.Comes n) : m = n := by
  induction hm generalizing n with
  | word =>
    cases hn
    rfl
  | group _ ih =>
    cases hn with
    | group hn => exact ih hn
  | divide _ _ hdiv ihx ihy =>
    cases hn with
    | divide hx hy hdiv' =>
      obtain ⟨rfl, rfl⟩ := hdiv.eq
      obtain ⟨rfl, rfl⟩ := hdiv'.eq
      rw [ihx hx, ihy hy]

/-- An expression has a value unless a divisor is zero. -/
lemma comes_or_dividesByZero (x : Arithmetic functions) :
    (∃ n, x.Comes n) ∨ x.DividesByZero := by
  induction x with
  | word w n reads free => exact .inl ⟨n, .word⟩
  | group x ih => exact ih.imp (fun ⟨n, hn⟩ => ⟨n, .group hn⟩) .group
  | divide share x y ihx ihy =>
    rcases ihx with ⟨a, ha⟩ | hx
    · rcases ihy with ⟨b, hb⟩ | hy
      · by_cases hzero : b = 0
        · subst hzero
          exact .inr (.here hb)
        · exact .inl ⟨_, .divide ha hb (truncates_tdiv a hzero)⟩
      · exact .inr (.right hy)
    · exact .inr (.left hx)

/-- No value has more digits than a word may have. -/
lemma Comes.natAbs_lt (h : x.Comes n) : n.natAbs < 10 ^ Integer.digitLimit := by
  induction h with
  | @word w n reads free => exact Integer.natAbs_lt_of_read reads
  | group _ ih => exact ih
  | @divide share x y a b q r _ _ hdiv ih _ =>
    obtain ⟨hq, hr⟩ := hdiv.natAbs_le
    cases share with
    | quotient => exact Nat.lt_of_le_of_lt hq ih
    | remainder => exact Nat.lt_of_le_of_lt hr ih

end Arithmetic

/-! ## Operands -/

section Operands

variable {fail : EvaluationFault → Failure} {o left right : Operand} {a b n : Int}

lemma Operand.IsInteger.natAbs_lt (h : o.IsInteger n) : n.natAbs < 10 ^ Integer.digitLimit := by
  obtain ⟨t, -, hread⟩ := h
  exact Integer.natAbs_lt_of_read hread

lemma Operand.IsInteger.integer_eq (h : o.IsInteger n) : o.integer fail none = pure n := by
  obtain ⟨t, rfl | rfl, hread⟩ := h
  · have htext : (Operand.value t).text none = pure t := rfl
    rw [Operand.integer, htext, pure_bind, hread]
  · have htext : (Operand.computed t).text none = pure t := rfl
    rw [Operand.integer, htext, pure_bind, hread]

lemma Operand.IsInteger.truth_eq (h : o.IsInteger n) : o.truth none = pure true := by
  obtain ⟨t, rfl | rfl, hread⟩ := h
  · have htruth : (Operand.value t).truth none = pure (Value.isTrueText t) := rfl
    rw [htruth, isTrueText_of_read hread]
  · have htruth : (Operand.computed t).truth none = pure (Value.isTrueText t) := rfl
    rw [htruth, isTrueText_of_read hread]

/-- What an operator computes is read back. -/
lemma read_write_share (ha : a.natAbs < 10 ^ Integer.digitLimit) (hb : b ≠ 0) (share : Share) :
    Integer.read (Integer.write (share.pick (a.tdiv b) (a.tmod b))) =
      .ok (share.pick (a.tdiv b) (a.tmod b)) := by
  obtain ⟨hquotient, hremainder⟩ := (truncates_tdiv a hb).natAbs_le
  cases share with
  | quotient => exact Integer.read_write (Nat.lt_of_le_of_lt hquotient ha)
  | remainder => exact Integer.read_write (Nat.lt_of_le_of_lt hremainder ha)

section Apply

variable (hleft : left.IsInteger a) (hright : right.IsInteger b)

include hleft hright

lemma apply_share (share : Share) :
    share.connective.apply fail none left right =
      if b = 0 then throw (fail share.fault)
      else pure (.computed (Integer.write (share.pick (a.tdiv b) (a.tmod b)))) := by
  cases share with
  | quotient =>
    simp only [Share.connective, Connective.apply, hright.integer_eq, hleft.integer_eq, pure_bind]
    rfl
  | remainder =>
    simp only [Share.connective, Connective.apply, hright.integer_eq, hleft.integer_eq, pure_bind]
    rfl

lemma apply_less : Connective.less.apply fail none left right =
    pure (.literal (decide (a < b))) := by
  simp only [Connective.apply, hright.integer_eq, hleft.integer_eq, pure_bind]

lemma apply_more : Connective.more.apply fail none left right =
    pure (.literal (decide (a > b))) := by
  simp only [Connective.apply, hright.integer_eq, hleft.integer_eq, pure_bind]

end Apply

end Operands

/-! ## Evaluation -/

namespace Arithmetic

variable {functions : FunctionRegistry} {x y : Arithmetic functions}

lemma Comes.not_dividesByZero {n : Int} (h : x.Comes n) : ¬ x.DividesByZero := by
  induction h with
  | word => nofun
  | group _ ih =>
    rintro ⟨⟩
    exact ih ‹_›
  | divide hx hy hdiv ihx ihy =>
    rintro (hzero | _ | hleft | hright)
    · exact hdiv.divisor_ne (hy.unique hzero)
    · exact ihx hleft
    · exact ihy hright

/-- An expression that has a value comes to an operand of it, and one that has none ends at a zero
divisor. -/
lemma reduce_tree (fail : EvaluationFault → Failure) (x : Arithmetic functions) :
    (∃ n o, x.Comes n ∧ o.IsInteger n ∧ x.layout.tree.reduce fail none = pure o) ∨
      (x.DividesByZero ∧ ∃ share : Share, x.layout.tree.reduce fail none =
        throw (fail share.fault)) := by
  induction x with
  | word w n reads free => exact .inl ⟨n, .value w, .word, ⟨w, .inl rfl, reads⟩, rfl⟩
  | group x ih =>
    refine ih.imp ?_ ?_
    · rintro ⟨n, o, hn, ho, hreduce⟩
      exact ⟨n, o, .group hn, ho, hreduce⟩
    · rintro ⟨hzero, share, hreduce⟩
      exact ⟨.group hzero, share, hreduce⟩
  | divide share x y ihx ihy =>
    have htree : (divide share x y).layout.tree =
        .join share.connective x.layout.tree y.layout.tree := rfl
    rw [htree, Tree.reduce]
    -- The left expression is evaluated first, and its zero divisor goes before one on the right.
    rcases ihx with ⟨a, left, ha, hleft, hx⟩ | ⟨hzero, failed, hx⟩
    · rw [hx, pure_bind]
      rcases ihy with ⟨b, right, hb, hright, hy⟩ | ⟨hzero, failed, hy⟩
      · rw [hy, pure_bind, apply_share hleft hright]
        split
        · rename_i hzero
          exact .inr ⟨.here (hzero ▸ hb), share, rfl⟩
        · rename_i hzero
          exact .inl ⟨_, _, .divide ha hb (truncates_tdiv a hzero),
            ⟨_, .inr rfl, read_write_share hleft.natAbs_lt hzero share⟩, rfl⟩
      · rw [hy, Script.throw_bind]
        exact .inr ⟨.right hzero, failed, rfl⟩
    · rw [hx, Script.throw_bind]
      exact .inr ⟨.left hzero, failed, rfl⟩

lemma Comes.reduce {n : Int} (h : x.Comes n) (fail : EvaluationFault → Failure) :
    ∃ o, o.IsInteger n ∧ x.layout.tree.reduce fail none = pure o := by
  rcases x.reduce_tree fail with ⟨m, o, hm, ho, hreduce⟩ | ⟨hzero, -⟩
  · exact ⟨o, hm.unique h ▸ ho, hreduce⟩
  · exact absurd hzero h.not_dividesByZero

lemma DividesByZero.reduce (h : x.DividesByZero) (fail : EvaluationFault → Failure) :
    ∃ share : Share, x.layout.tree.reduce fail none = throw (fail share.fault) := by
  rcases x.reduce_tree fail with ⟨n, o, hn, -, -⟩ | ⟨-, hreduce⟩
  · exact absurd h hn.not_dividesByZero
  · exact hreduce

/-- Division binds tighter than the comparisons. -/
lemma fits_of_fits (hx : x.layout.Fits 1) {r : Nat} (hr : r ≤ 5) : x.layout.Fits r := by
  cases x with
  | word w n reads free => trivial
  | group x => exact hx
  | divide share x y =>
    have hrank : share.connective.rank = 5 := by cases share <;> rfl
    exact ⟨hrank ▸ hr, hx.2⟩

end Arithmetic

/-- An evaluation that ends at a divisor that is zero. -/
def EndsAtZero (s : Script Bool) : Prop :=
  ∃ (share : Share) (source code : Text), s = throw (.evaluation share.fault source code)

section Conditions

variable {functions : FunctionRegistry} {condition : Text}

/-- A layout with the parentheses that it needs is evaluated as its tree. -/
lemma Layout.Fits.evaluate_eq {l : Layout functions} (hl : l.Fits 1)
    (hcondition : Text.withoutBlanks condition = l.text) :
    evaluate functions none (some condition) = l.tree.evaluate l.program.fault none := by
  rw [Layout.evaluate_condition hl.nests hcondition, hl.settled_eq.2]

namespace Arithmetic

variable {x y : Arithmetic functions} (hx : x.layout.Fits 1)

include hx

lemma Comes.evaluate_eq {n : Int} (h : x.Comes n)
    (hcondition : Text.withoutBlanks condition = x.text) :
    evaluate functions none (some condition) = pure true := by
  obtain ⟨o, ho, hreduce⟩ := h.reduce x.layout.program.fault
  rw [hx.evaluate_eq hcondition, Tree.evaluate, hreduce, pure_bind, ho.truth_eq]

lemma DividesByZero.endsAtZero (h : x.DividesByZero)
    (hcondition : Text.withoutBlanks condition = x.text) :
    EndsAtZero (evaluate functions none (some condition)) := by
  obtain ⟨share, hreduce⟩ := h.reduce x.layout.program.fault
  rw [hx.evaluate_eq hcondition, Tree.evaluate, hreduce]
  exact ⟨share, _, _, rfl⟩

section Comparison

variable (hy : y.layout.Fits 1) {c : Connective} (hc : c.rank = 2)

include hy hc

lemma fits_join : (Layout.join c x.layout y.layout).Fits 1 :=
  ⟨by omega, fits_of_fits hx (by omega), fits_of_fits hy (by omega)⟩

variable (hcondition : Text.withoutBlanks condition = x.text ++ c.symbol.char :: y.text)

include hcondition

/-- Two expressions that have values are compared by these. -/
lemma evaluate_of_comes {m n : Int} (hm : x.Comes m) (hn : y.Comes n) {b : Bool}
    (happly : ∀ {fail left right}, left.IsInteger m → right.IsInteger n →
      c.apply fail none left right = pure (.literal b)) :
    evaluate functions none (some condition) = pure b := by
  have hfits := fits_join hx hy hc
  obtain ⟨left, hleft, hreducex⟩ := hm.reduce (Layout.join c x.layout y.layout).program.fault
  obtain ⟨right, hright, hreducey⟩ := hn.reduce (Layout.join c x.layout y.layout).program.fault
  rw [hfits.evaluate_eq hcondition, Tree.evaluate, Layout.tree, Tree.reduce, hreducex, pure_bind,
    hreducey, pure_bind, happly hleft hright, pure_bind]
  rfl

lemma endsAtZero_of_dividesByZero (h : x.DividesByZero ∨ y.DividesByZero) :
    EndsAtZero (evaluate functions none (some condition)) := by
  have hfits := fits_join hx hy hc
  rw [hfits.evaluate_eq hcondition, Tree.evaluate, Layout.tree, Tree.reduce]
  rcases x.reduce_tree (Layout.join c x.layout y.layout).program.fault with
    ⟨m, left, hm, -, hreducex⟩ | ⟨-, share, hreducex⟩
  · obtain ⟨share, hreducey⟩ := (h.resolve_left hm.not_dividesByZero).reduce
      (Layout.join c x.layout y.layout).program.fault
    rw [hreducex, pure_bind, hreducey]
    exact ⟨share, _, _, rfl⟩
  · rw [hreducex]
    exact ⟨share, _, _, rfl⟩

end Comparison

end Arithmetic

end Conditions

/-- **Integer arithmetic is exact and closed.**  An operator of division puts the text of the exact
quotient or remainder on the stack, and it is read back.  An expression of integers has one value
unless a divisor in it is zero, and the value has no more digits than the words of the expression
may have; its instructions push an operand of the value, wherever in a program they stand.  So a
condition that is an expression, or that compares two of them, is evaluated by their values, and it
ends at a divisor that is zero if there is one. -/
theorem evaluate_arithmetic {functions : FunctionRegistry} (x y : Arithmetic functions)
    (hx : x.layout.Fits 1) (hy : y.layout.Fits 1) (condition : Text) :
    (∀ (share : Share) (left right : Operand) (a b : Int), left.IsInteger a → right.IsInteger b →
      b ≠ 0 → ∃ q r t, Truncates a b q r ∧ Integer.read t = .ok (share.pick q r) ∧
        ∀ (p : Program) (stack waiting : List Operand),
          p.step none { stack := right :: left :: stack, waiting } share.connective.symbol =
            pure { stack := .computed t :: stack, waiting }) ∧
    (¬ x.DividesByZero → ∃! n, x.Comes n) ∧
    (∀ n, x.Comes n → n.natAbs < 10 ^ Integer.digitLimit ∧
      ∀ (p : Program) (stack waiting : List Operand), ∃ o, o.IsInteger n ∧
        p.steps none x.layout.tree.postorder
            { stack, waiting := x.layout.tree.operands ++ waiting } =
          pure { stack := o :: stack, waiting }) ∧
    (Text.withoutBlanks condition = x.text →
      (∃ p, Program.compile functions (some condition) = .ok p ∧
        p.code = x.layout.tree.postorder ∧ p.operands = x.layout.tree.operands) ∧
      (¬ x.DividesByZero → evaluate functions none (some condition) = pure true) ∧
      (x.DividesByZero → EndsAtZero (evaluate functions none (some condition)))) ∧
    (Text.withoutBlanks condition = x.text ++ '<' :: y.text →
      (∀ m n, x.Comes m → y.Comes n →
        evaluate functions none (some condition) = pure (decide (m < n))) ∧
      (x.DividesByZero ∨ y.DividesByZero →
        EndsAtZero (evaluate functions none (some condition)))) ∧
    (Text.withoutBlanks condition = x.text ++ '>' :: y.text →
      (∀ m n, x.Comes m → y.Comes n →
        evaluate functions none (some condition) = pure (decide (m > n))) ∧
      (x.DividesByZero ∨ y.DividesByZero →
        EndsAtZero (evaluate functions none (some condition)))) := by
  -- The parts about conditions rest on those about expressions: what has no value ends at a zero
  -- divisor.
  refine ⟨?_, ?_, fun n hn => ⟨hn.natAbs_lt, fun p stack waiting => ?_⟩,
    fun hcondition => ⟨?_, ?_, fun hzero => hzero.endsAtZero hx hcondition⟩,
    fun hcondition => ⟨fun m n hm hn => ?_, ?_⟩, fun hcondition => ⟨fun m n hm hn => ?_, ?_⟩⟩
  · intro share left right a b hleft hright hb
    refine ⟨_, _, _, truncates_tdiv a hb, read_write_share hleft.natAbs_lt hb share, ?_⟩
    intro p stack waiting
    rw [p.step_symbol, apply_share hleft hright, if_neg hb, pure_bind]
  · intro hzero
    obtain ⟨n, hn⟩ := x.comes_or_dividesByZero.resolve_right hzero
    exact ⟨n, hn, fun m hm => hm.unique hn⟩
  · obtain ⟨o, ho, hreduce⟩ := hn.reduce p.fault
    refine ⟨o, ho, ?_⟩
    rw [p.steps_postorder, hreduce, pure_bind]
  · refine ⟨_, Layout.compile_program hx.nests hcondition, ?_, ?_⟩
    · rw [Layout.program, Layout.code, hx.settled_eq.1, hx.settled_eq.2]
      rfl
    · rw [Layout.program, hx.settled_eq.2]
  · intro hzero
    obtain ⟨n, hn⟩ := x.comes_or_dividesByZero.resolve_right hzero
    exact hn.evaluate_eq hx hcondition
  · exact Arithmetic.evaluate_of_comes hx hy (c := .less) rfl hcondition hm hn apply_less
  · exact Arithmetic.endsAtZero_of_dividesByZero hx hy (c := .less) rfl hcondition
  · exact Arithmetic.evaluate_of_comes hx hy (c := .more) rfl hcondition hm hn apply_more
  · exact Arithmetic.endsAtZero_of_dividesByZero hx hy (c := .more) rfl hcondition

/-- The expression `-7_0/٣%+5`. -/
def chainedArithmetic : Arithmetic builtinFunctions :=
  .divide .remainder
    (.divide .quotient (.integer ['-', '7', '_', '0'] (-70) rfl) (.integer ['٣'] 3 rfl))
    (.integer ['+', '5'] 5 rfl)

/-- The expression `(1/2)`. -/
def halfArithmetic : Arithmetic builtinFunctions :=
  .group (.divide .quotient (.integer ['1'] 1 rfl) (.integer ['2'] 2 rfl))

/-- The quotient of -70 by 3 is -23, which leaves -3 when divided by 5; the quotient of 1 by 2 is
zero, and division by it ends the evaluation. -/
theorem evaluate_arithmetic_chained :
    chainedArithmetic.layout.Fits 1 ∧ halfArithmetic.layout.Fits 1 ∧
      chainedArithmetic.Comes (-3) ∧ halfArithmetic.Comes 0 ∧
      evaluate builtinFunctions none (some "-7_0 / ٣ % +5 < (1/2)".toList) = pure true ∧
      EndsAtZero (evaluate builtinFunctions none (some "-7_0/٣%+5/(1/2)".toList)) := by
  have hchained : chainedArithmetic.layout.Fits 1 := by decide
  have hhalf : halfArithmetic.layout.Fits 1 := by decide
  have hthree : chainedArithmetic.Comes (-3) :=
    .divide (.divide .word .word (truncates_tdiv (-70) (by decide))) .word
      (truncates_tdiv (-23) (by decide))
  have hzero : halfArithmetic.Comes 0 :=
    .group (.divide .word .word (truncates_tdiv 1 (by decide)))
  obtain ⟨-, -, -, -, hless, -⟩ := evaluate_arithmetic chainedArithmetic halfArithmetic hchained
    hhalf "-7_0 / ٣ % +5 < (1/2)".toList
  obtain ⟨-, -, -, hwhole, -, -⟩ := evaluate_arithmetic
    (.divide .quotient chainedArithmetic halfArithmetic) halfArithmetic (by decide) hhalf
    "-7_0/٣%+5/(1/2)".toList
  refine ⟨hchained, hhalf, hthree, hzero, ?_, (hwhole (by decide)).2.2 (.here hzero)⟩
  rw [(hless (by decide)).1 (-3) 0 hthree hzero]
  rfl

end Condition

end Stencil
