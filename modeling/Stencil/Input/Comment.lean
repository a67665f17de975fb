import Stencil.Input.Delimited

/-!
# Comments

Comments of the template syntax: `#` and `//` to the end of the line, `/*` to `*/`, and `<!--` to
`-->`.  `skipComment` skips one of them, `skipTrivia` any number of them together with whitespace,
and `readToOutside` reads up to a character that stands outside comments and quotes.
-/

namespace Stencil.Input

/-! ## One comment -/

/-- Skips a comment whose `<` has been read, or leaves the input as it was; tells which. -/
def skipMarkup (i : Input) : EStateM.Result InputFault Input Bool :=
  match readExactly ['!', '-'] i with
  | .error e j => .error e j
  | .ok false j => .ok false j
  | .ok true j =>
    match j.next with
    | .error e k => .error e k
    | .ok d k =>
      if d = some '-' then
        match readThrough '-' ['-', '>'] (plainReader '-') [] k with
        | .ok _ l => .ok true l
        | .error e l => .error e l
      else
        match ((((k.unreadOption d).unread '-').unread '!').unread '<').readLine with
        | .ok found l => .error (.badComment found) l
        | .error e l => .error e l

/-- Skips a comment whose first character has been read, or leaves the input as it was. -/
def skipComment (c : Char) (i : Input) : EStateM.Result InputFault Input Bool :=
  if c = '#' then
    match i.readLine with
    | .ok _ j => .ok true j
    | .error e j => .error e j
  else if c = '/' then
    match i.next with
    | .error e j => .error e j
    | .ok d j =>
      if d = some '/' then
        match j.readLine with
        | .ok _ k => .ok true k
        | .error e k => .error e k
      else if d = some '*' then
        match readThrough '*' ['/'] (plainReader '*') [] j with
        | .ok _ k => .ok true k
        | .error e k => .error e k
      else .ok false (j.unreadOption d)
  else if c = '<' then i.skipMarkup
  else .ok false i

theorem size_of_skipMarkup {i j : Input} {b : Bool} (h : i.skipMarkup = .ok b j) :
    j.size ≤ i.size := by
  unfold skipMarkup at h
  split at h
  · simp at h
  · rename_i hr
    cases h
    exact size_of_readExactly hr
  · rename_i k hr
    have := size_of_readExactly hr
    split at h
    · simp at h
    · rename_i d l hl
      have := size_of_next hl
      split at h
      · split at h
        · rename_i hm
          cases h
          have := size_of_readThrough hm
          omega
        · simp at h
      · split at h <;> simp at h

theorem size_of_skipComment {c : Char} {i j : Input} {b : Bool}
    (h : i.skipComment c = .ok b j) : j.size ≤ i.size := by
  -- A comment is read by one of the readers of lines and of text up to its end, and what is no
  -- comment is put back.
  unfold skipComment at h
  split at h
  · split at h
    · rename_i hl
      cases h
      exact size_of_readLine hl
    · simp at h
  · split at h
    · split at h
      · simp at h
      · rename_i d k hn
        have := size_of_next hn
        split at h
        · split at h
          · rename_i hl
            cases h
            have := size_of_readLine hl
            omega
          · simp at h
        · split at h
          · split at h
            · rename_i hl
              cases h
              have := size_of_readThrough hl
              omega
            · simp at h
          · cases h
            exact Nat.le_of_eq (size_unreadOption_of_next hn)
    · split at h
      · exact size_of_skipMarkup h
      · cases h
        exact Nat.le_refl _

/-! ## Comments and whitespace -/

/-- Whether a character can be skipped: it is to be skipped and no comment starts with it. -/
def isSkipped (skipped : Text) (c : Char) : Bool := c != '/' && c != '<' && skipped.contains c

/-- Skips comments and the given characters.  What turns out to be no comment is left. -/
def skipTrivia (skipped : Text) (i : Input) : EStateM.Result InputFault Input Unit :=
  match _h : i.next with
  | .error e j => .error e j
  | .ok none j => .ok () j
  | .ok (some c) j =>
    match _hj : j.skipComment c with
    | .error e k => .error e k
    | .ok true k => skipTrivia skipped k
    | .ok false k => if isSkipped skipped c then skipTrivia skipped k else .ok () (k.unread c)
termination_by i.size
decreasing_by
  all_goals
    have := size_of_next_some _h
    have := size_of_skipComment _hj
    omega

theorem size_of_skipTrivia {skipped : Text} {i j : Input} (h : i.skipTrivia skipped = .ok () j) :
    j.size ≤ i.size := by
  fun_induction skipTrivia skipped i generalizing j with
  | case1 => simp at h
  | case2 i k hn =>
    cases h
    exact Nat.le_of_eq (size_of_next_none hn)
  | case3 => simp at h
  | case4 i c k hk l hl ih =>
    have := size_of_next_some hk
    have := size_of_skipComment hl
    have := ih h
    omega
  | case5 i c k hk l hl hs ih =>
    have := size_of_next_some hk
    have := size_of_skipComment hl
    have := ih h
    omega
  | case6 i c k hk l hl hs =>
    cases h
    have := size_of_next_some hk
    have := size_of_skipComment hl
    simp
    omega

/-! ## Text with comments -/

/-- A character that comments start with. -/
def startsComment (c : Char) : Bool := c == '#' || c == '/' || c == '<'

/-- Reads up to `closing` outside comments and quotes.  Comments are dropped, quoted texts are kept
with their quotes, and outside of them the escapes are replaced. -/
def readOutside (closing : Char) (i : Input) : EStateM.Result InputFault Input (Text × Bool) :=
  match _h : i.next with
  | .error e j => .error e j
  | .ok none j => .ok ([], false) j
  | .ok (some c) j =>
    if c = closing then .ok ([], true) j
    else if Text.isQuote c then
      match _hj : j.readClosed [] c with
      | .error e k => .error e k
      | .ok q k =>
        match readOutside closing k with
        | .ok (t, found) l => .ok (c :: q ++ c :: t, found) l
        | .error e l => .error e l
    else if startsComment c then
      match _hj : j.skipComment c with
      | .error e k => .error e k
      | .ok true k =>
        match _hk : k.skipTrivia [] with
        | .error e l => .error e l
        | .ok () l => readOutside closing l
      | .ok false k =>
        match readOutside closing k with
        | .ok (t, found) l => .ok (c :: t, found) l
        | .error e l => .error e l
    else if c = '\\' then
      match _hj : j.next with
      | .error e k => .error e k
      | .ok none k => .ok ([], false) k
      | .ok (some d) k =>
        match readOutside closing k with
        | .ok (t, found) l => .ok (escaped d ++ t, found) l
        | .error e l => .error e l
    else
      match readOutside closing j with
      | .ok (t, found) k => .ok (c :: t, found) k
      | .error e k => .error e k
termination_by i.size
decreasing_by
  · have := size_of_next_some _h
    have := size_of_readClosed _hj
    omega
  · have := size_of_next_some _h
    have := size_of_skipComment _hj
    have := size_of_skipTrivia _hk
    omega
  · have := size_of_next_some _h
    have := size_of_skipComment _hj
    omega
  · have := size_of_next_some _h
    have := size_of_next_some _hj
    omega
  · have := size_of_next_some _h
    omega

/-- Reads up to `closing` outside comments and quotes, after skipping the comments in front. -/
def readToOutside (closing : Char) (i : Input) : EStateM.Result InputFault Input (Text × Bool) :=
  match i.skipTrivia [] with
  | .error e j => .error e j
  | .ok () j => readOutside closing j

theorem size_of_readOutside {closing : Char} {i j : Input} {t : Text} {found : Bool}
    (h : i.readOutside closing = .ok (t, found) j) : j.size + found.toNat ≤ i.size := by
  -- A comment is skipped with the blanks behind it, so the rest is read from an input that is not
  -- the one behind the first character.
  fun_induction readOutside closing i generalizing t found j with
  | case2 i k hn =>
    cases h
    have := size_of_next_none hn
    simp
    omega
  | case3 i k hn =>
    cases h
    have := size_of_next_some hn
    simp
    omega
  | case5 i c k hk hc hq q l hl t' found' m hm ih =>
    cases h
    have := size_of_next_some hk
    have := size_of_readClosed hl
    have := ih hm
    omega
  | case9 i c k hk hc hq hs l hl m hm ih =>
    have := size_of_next_some hk
    have := size_of_skipComment hl
    have := size_of_skipTrivia hm
    have := ih h
    omega
  | case10 i c k hk hc hq hs l hl t' found' m hm ih =>
    cases h
    have := size_of_next_some hk
    have := size_of_skipComment hl
    have := ih hm
    omega
  | case13 =>
    rename_i hn hk _ _ _
    cases h
    have := size_of_next_some hk
    have := size_of_next_none hn
    simp
    omega
  | case14 =>
    rename_i hn _ _ _ hm hk _ _ _ ih
    cases h
    have := size_of_next_some hk
    have := size_of_next_some hn
    have := ih hm
    omega
  | case16 =>
    rename_i hk _ _ _ _ _ _ _ hm ih
    cases h
    have := size_of_next_some hk
    have := ih hm
    omega
  | _ => simp at h

theorem size_of_readToOutside {closing : Char} {i j : Input} {t : Text} {found : Bool}
    (h : i.readToOutside closing = .ok (t, found) j) : j.size + found.toNat ≤ i.size := by
  unfold readToOutside at h
  split at h
  · simp at h
  · rename_i hk
    have := size_of_skipTrivia hk
    have := size_of_readOutside h
    omega

/-- The reader that drops comments and respects quotes. -/
def outsideReader (closing : Char) : CharReader := ⟨readToOutside closing, size_of_readToOutside⟩

/-! ## Any terminator -/

/-- Reads up to a terminator.  One of a single character is taken but not given, and the end of the
input does as well; one of several characters must be there and is given with the text. -/
def readUntil (ending : Text) (dropComments : Bool) (i : Input) :
    EStateM.Result InputFault Input Text :=
  let reader (c : Char) : CharReader := if dropComments then outsideReader c else plainReader c
  match ending with
  | [] => .ok [] i
  | [c] =>
    match (reader c).read i with
    | .ok (t, _) j => .ok t j
    | .error e j => .error e j
  | c :: d :: rest => readThrough c (d :: rest) (reader c) [] i

end Stencil.Input
