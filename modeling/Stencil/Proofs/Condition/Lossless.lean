import Mathlib.Data.List.Forall2
import Stencil.Proofs.Condition.Arguments
import Stencil.Proofs.Condition.Conservation

/-!
# Scanning is lossless

A condition can be written back from its tokens.  Operators have one spelling, a value is spelled by
itself, and a call by its name and its arguments with commas between them; only of a keyword the
letter case is lost (`Token.WrittenAs`).

Nor does scanning refuse much.  The one thing that stops it is the name of a function without its
arguments, which `Stuck` describes as a scan from the left finds it: past operators and leaves, a
name that no parenthesis follows, or one with a parenthesis that is not closed outside of quotes.

Both are put together in `compile_writtenBack`.  Its first half is an equivalence between being
stuck and failing; each direction is an induction over the scan.  The second half takes the pieces
that the scanner finds (`Scanned`) and writes them one by one.  Here it matters that functions are
called what they are registered as, since a call is written with the name it carries.
-/

namespace Stencil.Condition

/-! ## Writing tokens -/

/-- An operand as it is written in a condition. -/
def Operand.written : Operand → Text
  | .literal b => Value.boolText b
  | .value raw => raw
  | .computed t => t
  | .call c => c.spelling

/-- Whether a token is written as a text.  A keyword may be in any mixture of cases. -/
def Token.WrittenAs : Token → Text → Prop
  | .operator s, t => t = [s.char]
  | .keyword b, t => t.map Char.toLower = Value.boolText b
  | .operand o, t => t = o.written

/-- A registry whose functions take the names they are registered under. -/
def TakesNames (functions : FunctionRegistry) : Prop :=
  ∀ name factory, functions.find? name = some factory →
    ∃ kind, factory = .calls kind ∧ kind.presetName = []

section TakesNames

variable {functions : FunctionRegistry} (hf : TakesNames functions)

include hf

lemma TakesNames.create_eq (name : Text) :
    (functions.find? name = none ∧ functions.create name = .ok none) ∨
      ∃ kind, (functions.find? name).isSome ∧ functions.create name = .ok (some (name, kind)) := by
  cases hfind : functions.find? name with
  | none =>
    refine .inl ⟨rfl, ?_⟩
    simp only [FunctionRegistry.create, hfind]
  | some factory =>
    obtain ⟨kind, rfl, hpreset⟩ := hf name factory hfind
    refine .inr ⟨kind, rfl, ?_⟩
    simp [FunctionRegistry.create, hfind, hpreset]

end TakesNames

lemma char_of_operator? {c : Char} {s : Symbol} (h : Symbol.operator? c = some s) : s.char = c := by
  have hfound := List.find?_some h
  simpa using (Bool.and_eq_true_iff.1 hfound).2

lemma toLower_of_keyword? {w : Text} {b : Bool} (h : keyword? w = some b) :
    w.map Char.toLower = Value.boolText b := by
  unfold keyword? at h
  split at h
  · rename_i htrue
    obtain rfl : true = b := by simpa using h
    exact beq_iff_eq.1 htrue
  · split at h
    · rename_i hfalse
      obtain rfl : false = b := by simpa using h
      exact beq_iff_eq.1 hfalse
    · cases h

/-- A leaf is written as it is spelled. -/
lemma Spells.writtenAs {functions : FunctionRegistry} (hf : TakesNames functions) {l : Leaf}
    {t : Text} (h : Spells functions l t) : l.token.WrittenAs t := by
  cases h with
  | keyword hw hb => exact toLower_of_keyword? hb
  | value hw hb hf => rfl
  | @call name carried arguments kind hw hb hcreate ha =>
    obtain rfl : carried = name := by
      rcases hf.create_eq name with ⟨-, hnone⟩ | ⟨kind', -, hsome⟩
      · simp [hnone] at hcreate
      · simp only [hsome, Except.ok.injEq, Option.some.injEq, Prod.mk.injEq] at hcreate
        exact hcreate.1.symm
    simp [Leaf.token, Token.WrittenAs, Operand.written, Call.spelling, join_splitArguments]

/-- The pieces of a text are written as the text. -/
lemma Scanned.written {functions : FunctionRegistry} (hf : TakesNames functions) {t : Text}
    {row : List Token} (h : Scanned functions t row) :
    ∃ spellings, List.Forall₂ Token.WrittenAs row spellings ∧ spellings.flatten = t := by
  induction h with
  | nil => exact ⟨[], .nil, rfl⟩
  | @operator c s rest row hc _ ih =>
    obtain ⟨spellings, hwritten, rfl⟩ := ih
    have hs : Token.WrittenAs (.operator s) [c] := by rw [Token.WrittenAs, char_of_operator? hc]
    exact ⟨[c] :: spellings, .cons hs hwritten, rfl⟩
  | @leaf l spelling rest row hl _ _ ih =>
    obtain ⟨spellings, hwritten, rfl⟩ := ih
    exact ⟨spelling :: spellings, .cons (hl.writtenAs hf) hwritten, rfl⟩

/-! ## What stops the scan -/

/-- A text in which a scan from the left comes to the name of a function without its arguments: past
operators and leaves there is a registered word, no keyword, that no parenthesis follows, or one
with a parenthesis after it that is nowhere closed. -/
inductive Stuck (functions : FunctionRegistry) : Text → SyntaxFault → Prop where
  | missing {w after : Text} (hw : IsWord w) (hb : keyword? w = none)
      (hf : (functions.find? w).isSome) (hend : EndsWord after) (hopen : after.head? ≠ some '(') :
      Stuck functions (w ++ after) (.missingArguments w)
  | unclosed {w inner : Text} (hw : IsWord w) (hb : keyword? w = none)
      (hf : (functions.find? w).isSome)
      (hclose : ∀ arguments following, inner = arguments ++ ')' :: following → ¬ Closed arguments) :
      Stuck functions (w ++ '(' :: inner) (.unclosedArguments w)
  | operator {c : Char} {s : Symbol} {rest : Text} {fault : SyntaxFault}
      (hc : Symbol.operator? c = some s) :
      Stuck functions rest fault → Stuck functions (c :: rest) fault
  | leaf {l : Leaf} {spelling rest : Text} {fault : SyntaxFault} (hl : Spells functions l spelling)
      (hend : IsWord spelling → EndsWord rest) :
      Stuck functions rest fault → Stuck functions (spelling ++ rest) fault

section Stuck

variable {functions : FunctionRegistry} (hf : TakesNames functions) {source t : Text}

/-- The search for the end of a call fails exactly if no text before a parenthesis is closed. -/
lemma closing?_eq_none_iff {inner : Text} :
    closing? 1 none inner = none ↔
      ∀ arguments following, inner = arguments ++ ')' :: following → ¬ Closed arguments := by
  constructor
  · rintro hnone arguments following rfl hclosed
    simp [closing?_arguments hclosed] at hnone
  · intro h
    cases hfound : closing? 1 none inner with
    | none => rfl
    | some found =>
      exact absurd (closed_of_closing? hfound)
        (h found.1 found.2 (append_of_closing? hfound).symm)

/-- A word whose reading fails stops the scan. -/
lemma tokensOf_of_readOperand {w after : Text} {e : Failure} (hw : IsWord w)
    (hb : keyword? w = none) (hend : EndsWord after)
    (he : readOperand functions source w after = .error e) :
    tokensOf functions source (w ++ after) = .error e := by
  have hsplit := splitWord_append_of_endsWord hw hend
  obtain ⟨c, cs, rfl⟩ := List.exists_cons_of_ne_nil hw.nonempty
  rw [List.cons_append] at hsplit ⊢
  rw [tokensOf]
  split
  · rename_i s hs
    simp [hw.plain c (by simp)] at hs
  · simp only [hsplit, hb]
    split
    · rename_i o after' ho
      simp [hsplit, he] at ho
    · rename_i e' he'
      obtain rfl : e = e' := by simpa [hsplit, he] using he'
      rfl

include hf

/-- A word that is to be a call and is none stops the scan. -/
lemma stuck_of_readOperand {w after : Text} {e : Failure} (hw : IsWord w) (hb : keyword? w = none)
    (hend : EndsWord after) (h : readOperand functions source w after = .error e) :
    ∃ fault, e = .compilation fault source ∧ Stuck functions (w ++ after) fault := by
  rcases hf.create_eq w with ⟨-, hcreate⟩ | ⟨kind, hsome, hcreate⟩
  · simp [readOperand, hcreate] at h
  by_cases hopen : after.head? = some '('
  · obtain ⟨inner, rfl⟩ := List.head?_eq_some_iff.1 hopen
    cases hclose : closing? 1 none inner with
    | none =>
      obtain rfl : .compilation (.unclosedArguments w) source = e := by
        simpa [readOperand, hcreate, hclose] using h
      exact ⟨_, rfl, .unclosed hw hb hsome (closing?_eq_none_iff.1 hclose)⟩
    | some found => simp [readOperand, hcreate, hclose] at h
  · obtain rfl : .compilation (.missingArguments w) source = e := by
      unfold readOperand at h
      rw [hcreate] at h
      dsimp only at h
      split at h
      · exact absurd rfl hopen
      · simpa using h
    exact ⟨_, rfl, .missing hw hb hsome hend hopen⟩

/-- What the scan fails for stops it. -/
lemma stuck_of_tokensOf {e : Failure} (h : tokensOf functions source t = .error e) :
    ∃ fault, e = .compilation fault source ∧ Stuck functions t fault := by
  -- A fault further on is reached over the piece in front; only in the last case is it at the first
  -- piece.
  fun_induction tokensOf functions source t with
  | case1 => cases h
  | case2 => cases h
  | case3 c rest s hc e' he ih =>
    obtain rfl : e' = e := by simpa using h
    obtain ⟨fault, rfl, hstuck⟩ := ih he
    exact ⟨fault, rfl, .operator hc hstuck⟩
  | case4 => cases h
  | case5 c rest hc word b hb e' he ih =>
    obtain rfl : e' = e := by simpa using h
    obtain ⟨fault, rfl, hstuck⟩ := ih he
    obtain ⟨hw, hend⟩ := isWord_splitWord hc rest
    have hpiece := Stuck.leaf (.keyword hw hb) (fun _ => hend) hstuck
    rw [splitWord_append] at hpiece
    exact ⟨fault, rfl, hpiece⟩
  | case6 => cases h
  | case7 c rest hc word hb o after ho e' he ih =>
    obtain rfl : e' = e := by simpa using h
    obtain ⟨fault, rfl, hstuck⟩ := ih he
    obtain ⟨hw, hend⟩ := isWord_splitWord hc rest
    obtain ⟨l, spelling, hl, -, htext, hends⟩ := spells_of_readOperand hw hb hend ho
    rw [← splitWord_append (c :: rest), htext]
    exact ⟨fault, rfl, .leaf hl hends hstuck⟩
  | case8 c rest hc word hb e' he =>
    obtain rfl : e' = e := by simpa using h
    obtain ⟨hw, hend⟩ := isWord_splitWord hc rest
    rw [← splitWord_append (c :: rest)]
    exact stuck_of_readOperand hf hw hb hend he

/-- What stops the scan makes it fail. -/
lemma Stuck.tokensOf {fault : SyntaxFault} (h : Stuck functions t fault) (source : Text) :
    tokensOf functions source t = .error (.compilation fault source) := by
  have hregistered {w : Text} (hsome : (functions.find? w).isSome) :
      ∃ kind, functions.create w = .ok (some (w, kind)) := by
    rcases hf.create_eq w with ⟨hnone, -⟩ | ⟨kind, -, hcreate⟩
    · simp [hnone] at hsome
    · exact ⟨kind, hcreate⟩
  -- The induction is on the pieces in front of the place where the scan is stuck.
  induction h with
  | @missing w after hw hb hsome hend hopen =>
    obtain ⟨kind, hcreate⟩ := hregistered hsome
    apply tokensOf_of_readOperand hw hb hend
    unfold readOperand
    rw [hcreate]
    dsimp only
    split
    · exact absurd rfl hopen
    · rfl
  | @unclosed w inner hw hb hsome hclose =>
    obtain ⟨kind, hcreate⟩ := hregistered hsome
    apply tokensOf_of_readOperand hw hb (endsWord_cons rfl inner)
    simp only [readOperand, hcreate, closing?_eq_none_iff.2 hclose]
  | operator hc _ ih =>
    rw [tokensOf_operator functions source hc, ih]
    rfl
  | leaf hl hend _ ih =>
    rw [hl.tokensOf source hend, ih]
    rfl

end Stuck

/-- **Scanning loses nothing and fails only for calls.**  Where functions take the names they are
registered under, a condition is refused exactly if a scan from the left comes to the name of a
function without its arguments, and for nothing else.  Otherwise its tokens, written one after the
other, are the condition without its whitespace; a keyword may have been written in other cases. -/
theorem compile_writtenBack {functions : FunctionRegistry} (hf : TakesNames functions)
    (condition : Option Text) {source : Text}
    (hsource : source = Text.withoutBlanks (condition.getD ['f', 'a', 'l', 's', 'e'])) :
    (∀ e, Program.compile functions condition = .error e ↔
        ∃ fault, e = .compilation fault source ∧ Stuck functions source fault) ∧
      ((∀ fault, ¬ Stuck functions source fault) →
        ∃ row spellings, tokensOf functions source source = .ok row ∧
          Program.compile functions condition = .ok (Program.ofTokens source row) ∧
          List.Forall₂ Token.WrittenAs row spellings ∧ spellings.flatten = source) := by
  subst hsource
  constructor
  · intro e
    simp only [Program.compile]
    constructor
    · intro h
      split at h
      · cases h
      · rename_i e' he
        obtain rfl : e' = e := by simpa using h
        exact stuck_of_tokensOf hf he
    · rintro ⟨fault, rfl, hstuck⟩
      rw [hstuck.tokensOf hf _]
  · intro hstuck
    cases hrow : tokensOf functions (Text.withoutBlanks (condition.getD ['f', 'a', 'l', 's', 'e']))
        (Text.withoutBlanks (condition.getD ['f', 'a', 'l', 's', 'e'])) with
    | error e =>
      obtain ⟨fault, -, h⟩ := stuck_of_tokensOf hf hrow
      exact absurd h (hstuck fault)
    | ok row =>
      obtain ⟨spellings, hwritten, hflat⟩ := (scanned_of_tokensOf hrow).written hf
      refine ⟨row, spellings, rfl, ?_, hwritten, hflat⟩
      simp only [Program.compile, hrow]

lemma takesNames_constantFunctions : TakesNames constantFunctions := by
  intro name factory h
  have hentry : (name, factory) ∈ constantFunctions := Table.mem_of_find? h
  obtain ⟨-, rfl⟩ : name = ['f'] ∧ factory = .calls constantKind := by
    simpa [constantFunctions, constantKind] using hentry
  exact ⟨constantKind, rfl, rfl⟩

/-- In `tRUE&f` the scan passes a keyword and an operator before it comes to a bare name. -/
lemma stuck_bareName : Stuck constantFunctions "tRUE&f".toList (.missingArguments ['f']) := by
  have hword : IsWord ['t', 'R', 'U', 'E'] := by decide
  have htrue : Spells constantFunctions (.truth true) ['t', 'R', 'U', 'E'] := .keyword hword rfl
  have hname : Stuck constantFunctions (['f'] ++ []) (.missingArguments ['f']) :=
    .missing (by decide) rfl rfl endsWord_nil (by simp)
  have hboth : Symbol.operator? '&' = some .both := rfl
  exact .leaf htrue (fun _ => endsWord_cons rfl _) (.operator hboth hname)

/-- A condition that stops the scan, and one with a call and with parentheses that match nothing,
which is written back but for the case of its keyword. -/
theorem compile_writtenBack_stray :
    TakesNames constantFunctions ∧
      Text.withoutBlanks "tRUE & f".toList = "tRUE&f".toList ∧
      Program.compile constantFunctions (some "tRUE & f".toList) =
        .error (.compilation (.missingArguments ['f']) "tRUE&f".toList) ∧
      Text.withoutBlanks " a)&((!f(b | c) TRUE".toList = "a)&((!f(b|c)TRUE".toList ∧
      ∃ row spellings,
        tokensOf constantFunctions "a)&((!f(b|c)TRUE".toList "a)&((!f(b|c)TRUE".toList = .ok row ∧
          Program.compile constantFunctions (some " a)&((!f(b | c) TRUE".toList) =
            .ok (Program.ofTokens "a)&((!f(b|c)TRUE".toList row) ∧
          List.Forall₂ Token.WrittenAs row spellings ∧
          spellings.flatten = "a)&((!f(b|c)TRUE".toList := by
  have hf := takesNames_constantFunctions
  have hbare : Text.withoutBlanks "tRUE & f".toList = "tRUE&f".toList := by decide
  have hstray : Text.withoutBlanks " a)&((!f(b | c) TRUE".toList = "a)&((!f(b|c)TRUE".toList := by
    decide
  have hfree : ∀ fault, ¬ Stuck constantFunctions "a)&((!f(b|c)TRUE".toList fault := by
    intro fault hstuck
    have hfails := hstuck.tokensOf hf "a)&((!f(b|c)TRUE".toList
    rw [scanned_strayRow.tokensOf] at hfails
    cases hfails
  refine ⟨hf, hbare, ?_, hstray, ?_⟩
  · exact ((compile_writtenBack hf (some "tRUE & f".toList) hbare.symm).1 _).2
      ⟨_, rfl, stuck_bareName⟩
  · exact (compile_writtenBack hf (some " a)&((!f(b | c) TRUE".toList) hstray.symm).2 hfree

end Stencil.Condition
