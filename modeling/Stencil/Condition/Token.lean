import Stencil.Condition.Arguments
import Stencil.Condition.Function
import Stencil.Condition.Symbol

/-!
# Tokens of conditions

A condition without its whitespace is a row of operators and words.  A word is a keyword, the name
of a registered function, which must be followed by its arguments in parentheses, or otherwise a
raw value.
-/

namespace Stencil.Condition

/-- A token. -/
inductive Token where
  /-- An operator or a parenthesis. -/
  | operator (s : Symbol)
  /-- One of the keywords `true` and `false`. -/
  | keyword (b : Bool)
  /-- A value or a call. -/
  | operand (o : Operand)

namespace Token

/-- The instruction of a token. -/
def symbol : Token → Symbol
  | .operator s => s
  | .keyword true => .yes
  | .keyword false => .no
  | .operand _ => .operand

/-- The operand that a token brings along. -/
def operand? : Token → Option Operand
  | .operand o => some o
  | _ => none

end Token

/-! ## Words -/

/-- The keyword that a word spells, in any mixture of cases. -/
def keyword? (word : Text) : Option Bool :=
  if Text.spells ['t', 'r', 'u', 'e'] word then some true
  else if Text.spells ['f', 'a', 'l', 's', 'e'] word then some false
  else none

/-- The longest word that a text starts with, and the text after it. -/
def splitWord (t : Text) : Text × Text :=
  (t.takeWhile (!Symbol.isOperatorChar ·), t.dropWhile (!Symbol.isOperatorChar ·))

theorem splitWord_append (t : Text) : (splitWord t).1 ++ (splitWord t).2 = t :=
  List.takeWhile_append_dropWhile

/-- A text that starts with no operator starts with a word. -/
theorem length_splitWord_lt {c : Char} {t : Text} (h : Symbol.operator? c = none) :
    (splitWord (c :: t)).2.length < (c :: t).length := by
  have hc : (!Symbol.isOperatorChar c) = true := by simp [Symbol.isOperatorChar, h]
  have hd := (List.dropWhile_sublist (l := t) (!Symbol.isOperatorChar ·)).length_le
  simp only [splitWord, List.dropWhile_cons, hc, if_true, List.length_cons]
  omega

/-- The operand of a word that is no keyword, with the text after it: a value, or a call if the word
is the name of a function. -/
def readOperand (functions : FunctionRegistry) (source word after : Text) :
    Except Failure (Operand × Text) :=
  match functions.create word with
  | .error fault => .error (.registration fault)
  | .ok none => .ok (.value word, after)
  | .ok (some (name, kind)) =>
    match after with
    | '(' :: inner =>
      match closing? 1 none inner with
      | some (arguments, rest) =>
        .ok (.call { name, kind, arguments := splitArguments arguments }, rest)
      | none => .error (.compilation (.unclosedArguments word) source)
    | _ => .error (.compilation (.missingArguments word) source)

theorem length_of_readOperand {functions : FunctionRegistry} {source word after rest : Text}
    {o : Operand} (h : readOperand functions source word after = .ok (o, rest)) :
    rest.length ≤ after.length := by
  unfold readOperand at h
  split at h
  · simp at h
  · simp only [Except.ok.injEq, Prod.mk.injEq] at h
    exact Nat.le_of_eq (congrArg List.length h.2.symm)
  · split at h
    · split at h
      · rename_i hc
        simp only [Except.ok.injEq, Prod.mk.injEq] at h
        have := congrArg List.length (append_of_closing? hc)
        rw [← h.2]
        simp at this ⊢
        omega
      · simp at h
    · simp at h

/-! ## Scanning -/

/-- The tokens of a text; `source` is the condition that a fault speaks of. -/
def tokensOf (functions : FunctionRegistry) (source : Text) (t : Text) :
    Except Failure (List Token) :=
  match t with
  | [] => .ok []
  | c :: rest =>
    match _h : Symbol.operator? c with
    | some s =>
      match tokensOf functions source rest with
      | .ok tokens => .ok (.operator s :: tokens)
      | .error e => .error e
    | none =>
      let word := (splitWord (c :: rest)).1
      match keyword? word with
      | some b =>
        match tokensOf functions source (splitWord (c :: rest)).2 with
        | .ok tokens => .ok (.keyword b :: tokens)
        | .error e => .error e
      | none =>
        match _ho : readOperand functions source word (splitWord (c :: rest)).2 with
        | .ok (o, after) =>
          match tokensOf functions source after with
          | .ok tokens => .ok (.operand o :: tokens)
          | .error e => .error e
        | .error e => .error e
termination_by t.length
decreasing_by
  · simp
  · exact length_splitWord_lt _h
  · have := length_splitWord_lt (t := rest) _h
    have := length_of_readOperand _ho
    omega

end Stencil.Condition
