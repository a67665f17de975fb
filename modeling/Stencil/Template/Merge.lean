import Stencil.Value.Display

/-!
# Merging template parameters

An expression `#{name}` is replaced by the parameter of that name, `#{name,default}` by the default
where no such parameter is bound.  Where the name is followed by a terminator other than the closing
brace, as in `#{bean.property}`, the parameter is merged into the expression: with the value
`#{user}` of `bean` it becomes `#{user.property}`.
-/

namespace Stencil.Template

/-! ## Bound expressions -/

/-- The characters that end a parameter's name. -/
def nameEnds : Text :=
  ['}', '[', '.', '=', '>', '<', '!', '&', '|', '*', '+', '-', '?', '/', '%', '(']

/-- Whether a character ends a parameter's name. -/
def endsName (c : Char) : Bool := nameEnds.contains c

/-- The text before and after the first `#{` that leaves room for a name and an end. -/
def cutOpening? (t : Text) : Option (Text × Text) :=
  match Text.cut? ['#', '{'] t with
  | some (before, inner) => if 2 ≤ inner.length then some (before, inner) else none
  | none => none

/-- The value of what stands where a name is expected: the parameter, or the default that a comma
sets off. -/
def lookUpParam (params : Entries) (token : Text) : Value :=
  let (name, default?) := Text.partition ',' token
  match Entries.get params (Text.trim name), default? with
  | .none, some text => .str (Text.trim text)
  | value, _ => value

/-- An expression whose parameter has a value: the text before it, the value, the character that
ends the name, and the text after that. -/
structure Bound where
  before : Text
  value : Value
  ending : Char
  after : Text
  deriving Inhabited

/-- The name in an expression, the character that ends it, and the text after that. -/
def splitName (inner : Text) : Option (Text × Char × Text) :=
  match inner.dropWhile (!endsName ·) with
  | [] => none
  | ending :: after => some (inner.takeWhile (!endsName ·), ending, after)

theorem length_of_splitName {inner name after : Text} {ending : Char}
    (h : splitName inner = some (name, ending, after)) : after.length < inner.length := by
  unfold splitName at h
  split at h
  · simp at h
  · rename_i c rest hd
    simp only [Option.some.injEq, Prod.mk.injEq] at h
    have := (List.dropWhile_sublist (l := inner) (!endsName ·)).length_le
    rw [hd] at this
    rw [← h.2.2]
    simp at this
    omega

theorem length_of_cutOpening? {t before inner : Text} (h : cutOpening? t = some (before, inner)) :
    inner.length < t.length := by
  unfold cutOpening? at h
  split at h
  · rename_i b i hc
    split at h
    · simp only [Option.some.injEq, Prod.mk.injEq] at h
      have := congrArg List.length (Text.append_of_cut? hc)
      rw [← h.2]
      simp at this
      omega
    · simp at h
  · simp at h

/-- The first expression whose parameter has a value. -/
def firstBound? (params : Entries) (t : Text) : Option Bound :=
  match _h : cutOpening? t with
  | none => none
  | some (before, inner) =>
    match _hn : splitName inner with
    | none => none
    | some (name, ending, after) =>
      let value := lookUpParam params (Text.trim name)
      if value.isSome then some { before, value, ending, after }
      else (firstBound? params after).map fun b =>
        { b with before := before ++ '#' :: '{' :: name ++ ending :: b.before }
termination_by t.length
decreasing_by
  have := length_of_cutOpening? _h
  have := length_of_splitName _hn
  omega

theorem length_of_firstBound? {params : Entries} {t : Text} {b : Bound}
    (h : firstBound? params t = some b) : b.after.length < t.length := by
  fun_induction firstBound? params t generalizing b with
  | case1 => simp at h
  | case2 => simp at h
  | case3 t before inner hc name ending after hn hv =>
    have := length_of_cutOpening? hc
    have := length_of_splitName hn
    simp only [Option.some.injEq] at h
    rw [← h]
    simp
    omega
  | case4 =>
    rename_i hc _ _ _ hn _ _ ih
    have := length_of_cutOpening? hc
    have := length_of_splitName hn
    obtain ⟨b', hb, rfl⟩ := Option.map_eq_some_iff.1 h
    have := ih hb
    simp
    omega

/-! ## Merging -/

/-- The text of a parameter without the braces of an expression that it is. -/
def bareText (value : Value) : Text :=
  Text.dropEnd ['}'] (Text.dropStart ['#', '{'] value.text)

/-- What merging has come to: the text so far after each merge into an expression, and the whole
text, or nothing if an expression has no end. -/
structure Merged where
  stages : List Text
  text? : Option Text

/-- A text with every bound expression replaced or merged, after the text `done`. -/
def mergeAll (params : Entries) (done t : Text) : Merged :=
  match _h : firstBound? params t with
  | none => { stages := [], text? := some (done ++ t) }
  | some b =>
    if b.ending = '}' then mergeAll params (done ++ b.before ++ b.value.text) b.after
    else
      match _hc : Text.cut? ['}'] b.after with
      | none => { stages := [], text? := none }
      | some (middle, after) =>
        let done :=
          done ++ b.before ++ '#' :: '{' :: bareText b.value ++ b.ending :: middle ++ ['}']
        let rest := mergeAll params done after
        { rest with stages := done :: rest.stages }
termination_by t.length
decreasing_by
  · exact length_of_firstBound? _h
  · have := length_of_firstBound? _h
    have := congrArg List.length (Text.append_of_cut? _hc)
    simp at this
    omega

end Stencil.Template
