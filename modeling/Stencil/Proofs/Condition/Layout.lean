import Mathlib.Algebra.Group.Nat.Defs
import Stencil.Proofs.Condition.Scanning
import Stencil.Proofs.Condition.Tree

/-!
# Layouts of conditions

A layout is a condition as it is written: a tree together with the spelling of its operands and with
its parentheses.  `Layout.tree` forgets the spelling, `Layout.text` writes it out, and `Layout.Fits`
says that there are parentheses wherever the order of the operators requires them.  Redundant
parentheses are allowed anywhere, and a leaf of a layout comes with the proof that its spelling
stands for it.

The main statement, `compile_text`, is that compiling the text of a fitting layout gives the
postorder of its tree and the operands of its tree from left to right.  It has two halves that meet
in the row of tokens of a layout.

* The scanner turns the text into the row (`Layout.tokensOf_text`).  Parentheses are of no account
  here, and every layout will do.
* The arrangement turns the row into the postorder (`Layout.arrange_row`).  What carries the
  induction is the state that a part of a condition leaves behind: instructions that are out, and
  operators that wait on the stack, which together are the postorder of the part.  All of the
  latter bind at least as tightly as the place where the part stands demands, so that whatever
  operator comes next there sends them out.
-/

namespace Stencil.Condition

/-! ## Order of the operators -/

/-- How tightly a connective binds, from `=` to `%` and `/`.  Negation binds tighter than any. -/
def Connective.rank : Connective → Nat
  | .equals => 1
  | .less => 2
  | .more => 2
  | .either => 3
  | .both => 4
  | .modulus => 5
  | .divide => 5

/-- The rank of negation. -/
def negateRank : Nat := 6

lemma Connective.rank_lt_negateRank (c : Connective) : c.rank < negateRank := by
  cases c <;> decide

/-- Precedences of instructions grow with ranks. -/
lemma Connective.precedence_symbol (c : Connective) : c.symbol.precedence = 2 ^ c.rank := by
  cases c <;> rfl

/-! ## Spelling -/

/-- A leaf of a tree. -/
inductive Leaf where
  | truth (b : Bool)
  | operand (o : Operand)

namespace Leaf

/-- The tree of a leaf. -/
def tree : Leaf → Tree
  | .truth b => .truth b
  | .operand o => .operand o

/-- The token of a leaf. -/
def token : Leaf → Token
  | .truth b => .keyword b
  | .operand o => .operand o

end Leaf

/-- The texts that stand for a leaf: a keyword in any case for a truth value, a word that is no name
of a function for the value it is, and the name of a function with closed arguments for a call. -/
inductive Spells (functions : FunctionRegistry) : Leaf → Text → Prop where
  | keyword {b : Bool} {w : Text} (hw : IsWord w) (hb : keyword? w = some b) :
      Spells functions (.truth b) w
  | value {w : Text} (hw : IsWord w) (hb : keyword? w = none)
      (hf : functions.create w = .ok none) : Spells functions (.operand (.value w)) w
  | call {name carried arguments : Text} {kind : FunctionKind} (hw : IsWord name)
      (hb : keyword? name = none) (hf : functions.create name = .ok (some (carried, kind)))
      (ha : Closed arguments) :
      Spells functions
        (.operand (.call { name := carried, kind, arguments := splitArguments arguments }))
        (name ++ '(' :: (arguments ++ [')']))

/-- A leaf is scanned as its token.  After a call anything may follow. -/
lemma Spells.tokensOf {functions : FunctionRegistry} {l : Leaf} {t : Text}
    (h : Spells functions l t) (source : Text) {after : Text} (ha : IsWord t → EndsWord after) :
    tokensOf functions source (t ++ after) =
      (l.token :: ·) <$> tokensOf functions source after := by
  cases h with
  | keyword hw hb => exact tokensOf_keyword functions source hw hb (ha hw)
  | value hw hb hf => exact tokensOf_operand functions source hw hb (ha hw) (readOperand_value hf)
  | @call name carried arguments kind hw hb hf hc =>
    have hopen : EndsWord ('(' :: (arguments ++ ')' :: after)) := endsWord_cons rfl _
    have hread := tokensOf_operand functions source hw hb hopen (readOperand_call hf hc)
    simpa [Leaf.token] using hread

/-! ## Layouts -/

/-- A written condition. -/
inductive Layout (functions : FunctionRegistry) where
  | leaf (l : Leaf) (spelling : Text) (spells : Spells functions l spelling)
  | group (x : Layout functions)
  | negate (x : Layout functions)
  | join (c : Connective) (x y : Layout functions)

namespace Layout

variable {functions : FunctionRegistry}

/-- The tree that is written. -/
def tree : Layout functions → Tree
  | .leaf l _ _ => l.tree
  | .group x => x.tree
  | .negate x => .negate x.tree
  | .join c x y => .join c x.tree y.tree

/-- The text of a layout. -/
def text : Layout functions → Text
  | .leaf _ spelling _ => spelling
  | .group x => '(' :: (x.text ++ [')'])
  | .negate x => '!' :: x.text
  | .join c x y => x.text ++ c.symbol.char :: y.text

/-- The tokens of a layout. -/
def row : Layout functions → List Token
  | .leaf l _ _ => [l.token]
  | .group x => .operator .leftParen :: (x.row ++ [.operator .rightParen])
  | .negate x => .operator .negate :: x.row
  | .join c x y => x.row ++ .operator c.symbol :: y.row

/-- Whether a layout has the parentheses that it needs where operators of rank `r` or more may
stand.  The connectives associate to the left, so on the right of one only tighter ones stand
bare.  No `!` stands directly before another. -/
def Fits : Nat → Layout functions → Prop
  | _, .leaf _ _ _ => True
  | _, .group x => x.Fits 1
  | r, .negate x => r ≤ negateRank ∧ x.Fits negateRank ∧ x.text.head? ≠ some '!'
  | r, .join c x y => r ≤ c.rank ∧ x.Fits c.rank ∧ y.Fits (c.rank + 1)

instance decidableFits : (r : Nat) → (x : Layout functions) → Decidable (x.Fits r)
  | _, .leaf _ _ _ => inferInstanceAs (Decidable True)
  | _, .group x => decidableFits 1 x
  | r, .negate x =>
    have := decidableFits negateRank x
    inferInstanceAs (Decidable (r ≤ negateRank ∧ x.Fits negateRank ∧ x.text.head? ≠ some '!'))
  | r, .join c x y =>
    have := decidableFits c.rank x
    have := decidableFits (c.rank + 1) y
    inferInstanceAs (Decidable (r ≤ c.rank ∧ x.Fits c.rank ∧ y.Fits (c.rank + 1)))

/-! ## From the text to the row -/

/-- The text of a layout is scanned as its row. -/
lemma tokensOf_text (x : Layout functions) (source : Text) {after : Text} (ha : EndsWord after) :
    tokensOf functions source (x.text ++ after) =
      (x.row ++ ·) <$> tokensOf functions source after := by
  induction x generalizing after with
  | leaf l spelling spells => exact spells.tokensOf source fun _ => ha
  | group x ih =>
    have hclose : EndsWord (')' :: after) := endsWord_cons rfl after
    simp only [text, row, List.cons_append, List.append_assoc, List.nil_append,
      tokensOf_operator functions source (show Symbol.operator? '(' = some .leftParen from rfl),
      tokensOf_operator functions source (show Symbol.operator? ')' = some .rightParen from rfl),
      ih hclose, Functor.map_map]
  | negate x ih =>
    simp only [text, row, List.cons_append, ih ha, Functor.map_map,
      tokensOf_operator functions source (show Symbol.operator? '!' = some .negate from rfl)]
  | join c x y ihx ihy =>
    have hc : Symbol.operator? c.symbol.char = some c.symbol := by cases c <;> rfl
    have hbetween : EndsWord (c.symbol.char :: (y.text ++ after)) := by
      exact endsWord_cons (by rw [hc]; rfl) _
    simp only [text, row, List.cons_append, List.append_assoc, ihx hbetween,
      tokensOf_operator functions source hc, ihy ha, Functor.map_map]

@[simp] lemma operand?_operator (s : Symbol) : (Token.operator s).operand? = none := rfl

/-- The operands of a layout's row are those of its tree. -/
lemma operands_row (x : Layout functions) :
    x.row.filterMap Token.operand? = x.tree.operands := by
  induction x with
  | leaf l _ _ => cases l <;> rfl
  | group x ih => simp [row, tree, List.filterMap_cons, ih]
  | negate x ih => simp [row, tree, Tree.operands, List.filterMap_cons, ih]
  | join c x y ihx ihy => simp [row, tree, Tree.operands, List.filterMap_cons, ihx, ihy]

/-! ## From the row to the postorder -/

/-- A stack whose top binds less tightly than an operator of rank `r`. -/
def Looser (r : Nat) (stack : List Symbol) : Prop := ∀ s ∈ stack.head?, s.precedence < 2 ^ r

lemma Looser.mono {r r' : Nat} {stack : List Symbol} (h : Looser r stack) (hr : r ≤ r') :
    Looser r' stack := fun s hs =>
  Nat.lt_of_lt_of_le (h s hs) (Nat.pow_le_pow_right (by decide) hr)

/-- An operator sends out what waits above a looser stack and stays on top of that stack. -/
lemma arrange_operator {s : Symbol} {r : Nat} (hs : s.precedence = 2 ^ r)
    (hn : s = .negate ∨ ∃ c : Connective, s = c.symbol) (pending : List Symbol)
    {stack : List Symbol} (hp : ∀ a ∈ pending, 2 ^ r ≤ a.precedence) (hstack : Looser r stack)
    (rest : List Symbol) :
    arrange (pending ++ stack) (s :: rest) = pending ++ arrange (s :: stack) rest := by
  have hpending : ∀ a ∈ pending, decide (s.precedence ≤ a.precedence) = true := by
    intro a ha
    simpa [hs] using hp a ha
  -- What waits above goes out as a whole, and the stack, being looser, stops it at once.
  have hstop : stack.takeWhile (fun a => decide (s.precedence ≤ a.precedence)) = [] ∧
      stack.dropWhile (fun a => decide (s.precedence ≤ a.precedence)) = stack := by
    cases stack with
    | nil => simp
    | cons a stack =>
      have ha : ¬decide (s.precedence ≤ a.precedence) = true := by
        simpa [hs] using hstack a (by simp)
      exact ⟨List.takeWhile_cons_of_neg ha, List.dropWhile_cons_of_neg ha⟩
  have hgo : arrange (pending ++ stack) (s :: rest) =
      tighter s (pending ++ stack) ++ arrange (s :: looser s (pending ++ stack)) rest := by
    rcases hn with rfl | ⟨c, rfl⟩
    · rfl
    · cases c <;> rfl
  rw [hgo, tighter, looser, List.takeWhile_append_of_pos hpending,
    List.dropWhile_append_of_pos hpending, hstop.1, hstop.2, List.append_nil]

lemma forall_ne_leftParen {pending : List Symbol} (hp : .leftParen ∉ pending) :
    ∀ a ∈ pending, (a != .leftParen) = true := by
  intro a ha
  rw [bne_iff_ne]
  rintro rfl
  exact hp ha

/-- A closing parenthesis sends out what waits above the opening one. -/
lemma arrange_close {pending : List Symbol} (hp : .leftParen ∉ pending)
    (stack rest : List Symbol) :
    arrange (pending ++ .leftParen :: stack) (.rightParen :: rest) =
      pending ++ arrange stack rest := by
  have hpending := forall_ne_leftParen hp
  simp only [arrange, List.takeWhile_append_of_pos hpending,
    List.dropWhile_append_of_pos hpending]
  simp

/-- A part of a condition leaves the instructions `code` behind where operators of rank `r` or more
may stand: some of them are out, the others wait on the stack, and these bind with rank `r` at
least.  This holds above every looser stack and before every continuation. -/
def Arranges (r : Nat) (part code : List Symbol) : Prop :=
  ∀ stack, Looser r stack → ∃ out pending, out ++ pending = code ∧
    (∀ a ∈ pending, 2 ^ r ≤ a.precedence) ∧
    ∀ rest, arrange stack (part ++ rest) = out ++ arrange (pending ++ stack) rest

/-- What stands behind a `!` is a leaf or in parentheses unless it is another `!`. -/
lemma Fits.above_negate {x : Layout functions} (h : x.Fits negateRank)
    (hx : x.text.head? ≠ some '!') : x.Fits (negateRank + 1) := by
  cases x with
  | leaf l spelling spells => trivial
  | group x => exact h
  | negate x => simp [text] at hx
  | join c x y => exact absurd h.1 (by have := c.rank_lt_negateRank; omega)

lemma arranges_leaf (l : Leaf) {r : Nat} : Arranges r [l.token.symbol] l.tree.postorder := by
  intro stack _
  refine ⟨l.tree.postorder, [], by simp, by simp, fun rest => ?_⟩
  cases l with
  | truth b => cases b <;> rfl
  | operand o => rfl

/-- Parentheses shield a part from the operators around them. -/
lemma Arranges.group {part code : List Symbol} (h : Arranges 1 part code) (r : Nat) :
    Arranges r (.leftParen :: (part ++ [.rightParen])) code := by
  intro stack _
  have hparen : Looser 1 (.leftParen :: stack) := by simp [Looser, Symbol.precedence]
  obtain ⟨out, pending, hcode, hpending, hgo⟩ := h (.leftParen :: stack) hparen
  have hinside : .leftParen ∉ pending := fun hmem => absurd (hpending _ hmem) (by decide)
  refine ⟨code, [], by simp, by simp, fun rest => ?_⟩
  calc arrange stack (.leftParen :: (part ++ [.rightParen]) ++ rest)
      = arrange (.leftParen :: stack) (part ++ (.rightParen :: rest)) := by simp [arrange]
    _ = out ++ arrange (pending ++ .leftParen :: stack) (.rightParen :: rest) := hgo _
    _ = out ++ (pending ++ arrange stack rest) := by rw [arrange_close hinside]
    _ = code ++ arrange ([] ++ stack) rest := by rw [← hcode]; simp

lemma Arranges.negate {part code : List Symbol} (h : Arranges (negateRank + 1) part code) {r : Nat}
    (hr : r ≤ negateRank) : Arranges r (.negate :: part) (code ++ [.negate]) := by
  intro stack hstack
  have habove : Looser (negateRank + 1) (.negate :: stack) := by
    simp [Looser, Symbol.precedence, negateRank]
  obtain ⟨out, pending, hcode, hpending, hgo⟩ := h (.negate :: stack) habove
  refine ⟨out, pending ++ [.negate], by rw [← hcode]; simp, ?_, fun rest => ?_⟩
  · intro a ha
    rcases List.mem_append.1 ha with ha | ha
    · exact Nat.le_trans (Nat.pow_le_pow_right (by decide) (by omega)) (hpending a ha)
    · obtain rfl := List.mem_singleton.1 ha
      exact Nat.pow_le_pow_right (n := 2) (by decide) hr
  · calc arrange stack (.negate :: part ++ rest)
        = arrange (.negate :: stack) (part ++ rest) :=
          arrange_operator (r := negateRank) rfl (.inl rfl) [] (by simp)
            (hstack.mono hr) (part ++ rest)
      _ = out ++ arrange (pending ++ .negate :: stack) rest := hgo rest
      _ = out ++ arrange (pending ++ [.negate] ++ stack) rest := by simp

lemma Arranges.join {left right codel coder : List Symbol} {c : Connective}
    (hl : Arranges c.rank left codel) (hr : Arranges (c.rank + 1) right coder) {r : Nat}
    (hc : r ≤ c.rank) :
    Arranges r (left ++ c.symbol :: right) (codel ++ coder ++ [c.symbol]) := by
  intro stack hstack
  have hlow := hstack.mono hc
  -- The left side is arranged over the stack as it is, the right side over the stack with the
  -- operator.
  obtain ⟨outl, pendingl, hcodel, hpendingl, hgol⟩ := hl stack hlow
  have habove : Looser (c.rank + 1) (c.symbol :: stack) := by
    have hpow : 2 ^ c.rank < 2 ^ (c.rank + 1) := Nat.pow_lt_pow_right (by decide) (by omega)
    simpa [Looser, c.precedence_symbol] using hpow
  obtain ⟨outr, pendingr, hcoder, hpendingr, hgor⟩ := hr (c.symbol :: stack) habove
  refine ⟨codel ++ outr, pendingr ++ [c.symbol], by rw [← hcoder]; simp, ?_, fun rest => ?_⟩
  · intro a ha
    rcases List.mem_append.1 ha with ha | ha
    · exact Nat.le_trans (Nat.pow_le_pow_right (by decide) (by omega)) (hpendingr a ha)
    · obtain rfl := List.mem_singleton.1 ha
      rw [c.precedence_symbol]
      exact Nat.pow_le_pow_right (by decide) hc
  · calc arrange stack (left ++ c.symbol :: right ++ rest)
        = outl ++ arrange (pendingl ++ stack) (c.symbol :: (right ++ rest)) := by
          rw [List.append_assoc, List.cons_append, hgol]
      _ = outl ++ (pendingl ++ arrange (c.symbol :: stack) (right ++ rest)) := by
          rw [arrange_operator c.precedence_symbol (.inr ⟨c, rfl⟩) pendingl hpendingl hlow]
      _ = codel ++ (outr ++ arrange (pendingr ++ c.symbol :: stack) rest) := by
          rw [hgor, ← hcodel, List.append_assoc]
      _ = codel ++ outr ++ arrange (pendingr ++ [c.symbol] ++ stack) rest := by simp

/-- A fitting layout leaves the postorder of its tree behind. -/
lemma arranges_row {x : Layout functions} {r : Nat} (hx : x.Fits r) :
    Arranges r (x.row.map Token.symbol) x.tree.postorder := by
  induction x generalizing r with
  | leaf l spelling spells => exact arranges_leaf l
  | group x ih => simpa [row, tree, Token.symbol] using (ih hx).group r
  | negate x ih =>
    obtain ⟨hr, hx, hhead⟩ := hx
    exact (ih (hx.above_negate hhead)).negate hr
  | join c x y ihx ihy =>
    obtain ⟨hr, hx, hy⟩ := hx
    simpa [row, tree, Tree.postorder, Token.symbol] using (ihx hx).join (ihy hy) hr

/-- The row of a fitting layout is arranged into the postorder of its tree. -/
lemma arrange_row {x : Layout functions} (hx : x.Fits 1) :
    arrange [] (x.row.map Token.symbol) = x.tree.postorder := by
  obtain ⟨out, pending, hcode, -, hgo⟩ := arranges_row hx [] (by simp [Looser])
  calc arrange [] (x.row.map Token.symbol)
      = arrange [] (x.row.map Token.symbol ++ []) := by rw [List.append_nil]
    _ = out ++ arrange (pending ++ []) [] := hgo []
    _ = x.tree.postorder := by rw [← hcode, List.append_nil]; rfl

end Layout

/-! ## Compilation -/

/-- No parenthesis is an instruction of a tree. -/
lemma Tree.no_parentheses (t : Tree) :
    Symbol.leftParen ∉ t.postorder ∧ Symbol.rightParen ∉ t.postorder := by
  induction t with
  | truth b => cases b <;> decide
  | operand o => simp [postorder]
  | negate t ih => simp [postorder, ih]
  | join c left right ihl ihr => cases c <;> simp [postorder, ihl, ihr, Connective.symbol]

/-- **Compilation is the grammar of the operators.**  A condition that is written with the
parentheses that the order of the operators requires, and any more, compiles to the postorder of
its tree, which has no parentheses in it, and to the operands of its tree from left to right.
Whitespace may stand anywhere in the condition. -/
theorem compile_text {functions : FunctionRegistry} (x : Layout functions) (hx : x.Fits 1)
    (condition : Text) (hcondition : Text.withoutBlanks condition = x.text) :
    Program.compile functions (some condition) = .ok (x.tree.program x.text) ∧
      Symbol.leftParen ∉ x.tree.postorder ∧ Symbol.rightParen ∉ x.tree.postorder := by
  refine ⟨?_, x.tree.no_parentheses⟩
  have htokens : tokensOf functions x.text x.text = .ok x.row := by
    have h := x.tokensOf_text x.text endsWord_nil
    rw [tokensOf_nil, List.append_nil] at h
    simpa [Functor.map, Except.map] using h
  simp only [Program.compile, Option.getD_some, hcondition, htokens, Program.ofTokens,
    Layout.arrange_row hx, Layout.operands_row, Tree.program]

/-- A function of the name `f` that is always true. -/
def constantFunctions : FunctionRegistry :=
  [(['f'], .calls { className := ['F'], truth := fun _ _ => pure true })]

/-- The condition `!(a|TRUE)&f(x,(y))=b`. -/
def mixedLayout : Layout constantFunctions :=
  .join .equals
    (.join .both
      (.negate (.group (.join .either
        (.leaf _ ['a'] (.value (by decide) rfl rfl))
        (.leaf _ ['T', 'R', 'U', 'E'] (.keyword (b := true) (by decide) rfl)))))
      (.leaf _ _ (.call (show IsWord ['f'] by decide) rfl rfl
        (.plain (c := 'x') rfl (by decide) (by decide)
          (.plain (c := ',') rfl (by decide) (by decide)
            (.nested (.plain (c := 'y') rfl (by decide) (by decide) .nil) .nil))))))
    (.leaf _ ['b'] (.value (by decide) rfl rfl))

/-- Whitespace, a redundant spelling and nested parentheses in an argument at once. -/
theorem compile_text_mixed :
    mixedLayout.Fits 1 ∧
      Text.withoutBlanks " !( a|TRUE) & f( x,(y)) =b".toList = mixedLayout.text ∧
      Program.compile constantFunctions (some " !( a|TRUE) & f( x,(y)) =b".toList) =
        .ok (mixedLayout.tree.program mixedLayout.text) ∧
      mixedLayout.tree.postorder =
        [.operand, .yes, .either, .negate, .operand, .both, .operand, .equals] := by
  have hfits : mixedLayout.Fits 1 := by decide
  have htext : Text.withoutBlanks " !( a|TRUE) & f( x,(y)) =b".toList = mixedLayout.text := by
    decide
  exact ⟨hfits, htext, (compile_text mixedLayout hfits _ htext).1, rfl⟩

end Stencil.Condition
