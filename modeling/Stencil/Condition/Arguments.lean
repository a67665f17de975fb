import Stencil.Text.Basic

/-!
# Arguments of calls

Where the arguments of a call end, and where one ends and the next begins.  Both scans take quoted
texts as they are.  The end of a call is found by counting parentheses alone; a comma separates
arguments only outside all brackets.
-/

namespace Stencil.Condition

/-! ## The end of a call -/

/-- The text before and after the parenthesis that brings the depth to zero. -/
def closing? (depth : Int) (quote : Option Char) : Text → Option (Text × Text)
  | [] => none
  | c :: t =>
    let onwards (depth : Int) (quote : Option Char) : Option (Text × Text) :=
      (closing? depth quote t).map fun (before, after) => (c :: before, after)
    match quote with
    | some q => onwards depth (if c = q then none else quote)
    | none =>
      if Text.isQuote c then onwards depth (some c)
      else if c = '(' then onwards (depth + 1) none
      else if c = ')' then
        if depth = 1 then some ([], t) else onwards (depth - 1) none
      else onwards depth none

/-- The position of the parenthesis that closes the one at a position. -/
def closingIndex? (t : Text) (start : Nat) : Option Nat :=
  (closing? 0 none (t.drop start)).map fun (before, _) => start + before.length

/-- The two sides of the closing parenthesis make up the text. -/
theorem append_of_closing? {depth : Int} {quote : Option Char} {t before after : Text}
    (h : closing? depth quote t = some (before, after)) : before ++ ')' :: after = t := by
  induction t generalizing depth quote before with
  | nil => simp [closing?] at h
  | cons c t ih =>
    -- All branches but that of the closing parenthesis pass over the character in another state.
    have onwards : ∀ {d : Int} {q : Option Char},
        (closing? d q t).map (fun (x, y) => (c :: x, y)) = some (before, after) →
        before ++ ')' :: after = c :: t := by
      intro d q hm
      obtain ⟨⟨b, a⟩, hc, he⟩ := Option.map_eq_some_iff.1 hm
      simp only [Prod.mk.injEq] at he
      obtain ⟨rfl, rfl⟩ := he
      simp [ih hc]
    unfold closing? at h
    split at h
    · exact onwards h
    · split at h
      · exact onwards h
      · split at h
        · exact onwards h
        · split at h
          · rename_i hc
            split at h
            · simp only [Option.some.injEq, Prod.mk.injEq] at h
              simp [← h.1, ← h.2, hc]
            · exact onwards h
          · exact onwards h

/-! ## Splitting -/

/-- The bracket that closes an opening one. -/
def closer? : Char → Option Char
  | '(' => some ')'
  | '{' => some '}'
  | '[' => some ']'
  | _ => none

/-- The arguments of a list from some point on, given the closers awaited (innermost first) and
the quote that is open.  The first argument of the answer is the one under way. -/
def splitFrom (closers : List Char) (quote : Option Char) : Text → Text × List Text
  | [] => ([], [])
  | c :: t =>
    let onwards (closers : List Char) (quote : Option Char) : Text × List Text :=
      let (first, rest) := splitFrom closers quote t
      (c :: first, rest)
    match quote with
    | some q => onwards closers (if c = q then none else quote)
    | none =>
      if Text.isQuote c then onwards closers (some c)
      else match closer? c with
        | some closer => onwards (closer :: closers) none
        | none =>
          if closers.head? = some c then onwards closers.tail none
          else if c = ',' ∧ closers = [] then
            let (first, rest) := splitFrom [] none t
            ([], first :: rest)
          else onwards closers none

/-- The arguments of a list; an empty text has none. -/
def splitArguments (t : Text) : List Text :=
  if t.isEmpty then []
  else
    let (first, rest) := splitFrom [] none t
    first :: rest

end Stencil.Condition
