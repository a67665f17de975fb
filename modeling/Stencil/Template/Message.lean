import Stencil.Number.Integer

/-!
# Messages with placeholders

A message of a resource bundle may hold numbered placeholders, `{0}`, `{1}` and so on, for which
arguments are put in.  All placeholders are found in the message itself, so what an argument holds
is never looked at; a number without an argument stays as it is.
-/

namespace Stencil.Template

/-- The digits of a placeholder whose opening brace has been seen, and the text after it. -/
def placeholder? (t : Text) : Option (Text × Text) :=
  match t.dropWhile Text.isDigit with
  | '}' :: after =>
    if (t.takeWhile Text.isDigit).isEmpty then none else some (t.takeWhile Text.isDigit, after)
  | _ => none

theorem length_of_placeholder? {t digits after : Text} (h : placeholder? t = some (digits, after)) :
    after.length < t.length := by
  unfold placeholder? at h
  split at h
  · rename_i rest hd
    split at h
    · simp at h
    · simp only [Option.some.injEq, Prod.mk.injEq] at h
      have := (List.dropWhile_sublist (l := t) Text.isDigit).length_le
      rw [hd] at this
      rw [← h.2]
      simp at this ⊢
      omega
  · simp at h

/-- A message with the arguments put in for its placeholders. -/
def formatMessage (arguments : List Text) (message : Text) : Except IntegerFault Text :=
  match message with
  | [] => .ok []
  | c :: t =>
    match _h : if c = '{' then placeholder? t else none with
    | none =>
      match formatMessage arguments t with
      | .ok rest => .ok (c :: rest)
      | .error e => .error e
    | some (digits, after) =>
      match Integer.read digits with
      | .error e => .error e
      | .ok index =>
        match formatMessage arguments after with
        | .ok rest => .ok ((arguments[index.toNat]?).getD ('{' :: digits ++ ['}']) ++ rest)
        | .error e => .error e
termination_by message.length
decreasing_by
  · simp
  · split at _h
    · have := length_of_placeholder? _h
      simp
      omega
    · simp at _h

end Stencil.Template
