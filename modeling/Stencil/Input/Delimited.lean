import Stencil.Input.Line

/-!
# Delimited text

Reading up to a terminator.  `readTo` reads up to one character, which it takes but does not give;
it honours backslash escapes and tells whether the character was found at all.  `readThrough`
builds on any such reader and reads up to a terminator of several characters, which must be there
and is given back with the text.
-/

namespace Stencil.Input

/-! ## One character -/

/-- What a backslash and the character after it contribute to a text.  A newline contributes
nothing: the line is continued. -/
def escaped : Char → Text
  | 'n' => ['\n']
  | 't' => ['\t']
  | '\n' => []
  | c => [c]

/-- Reads up to `closing`, with the escapes replaced; also tells whether `closing` was found. -/
def readTo (closing : Char) (i : Input) : EStateM.Result InputFault Input (Text × Bool) :=
  match _h : i.next with
  | .error e j => .error e j
  | .ok none j => .ok ([], false) j
  | .ok (some c) j =>
    if c = closing then .ok ([], true) j
    else if c = '\\' then
      match _hj : j.next with
      | .error e k => .error e k
      | .ok none k => .ok ([], false) k
      | .ok (some d) k =>
        match readTo closing k with
        | .ok (t, found) l => .ok (escaped d ++ t, found) l
        | .error e l => .error e l
    else
      match readTo closing j with
      | .ok (t, found) k => .ok (c :: t, found) k
      | .error e k => .error e k
termination_by i.size
decreasing_by
  · have := size_of_next_some _h
    have := size_of_next_some _hj
    omega
  · have := size_of_next_some _h
    omega

/-- Finding the character takes at least that one, and nothing is added otherwise. -/
theorem size_of_readTo {closing : Char} {i j : Input} {t : Text} {found : Bool}
    (h : i.readTo closing = .ok (t, found) j) : j.size + found.toNat ≤ i.size := by
  fun_induction readTo closing i generalizing t found j with
  | case1 => simp at h
  | case2 i k hn =>
    cases h
    have := size_of_next_none hn
    simp
    omega
  | case3 i k hn =>
    cases h
    have := size_of_next_some hn
    simp
    omega
  | case4 => simp at h
  | case5 i k l hl hk hc =>
    cases h
    have := size_of_next_some hk
    have := size_of_next_none hl
    simp
    omega
  | case6 i k d l hl t' found' m hm hk hc ih =>
    cases h
    have := size_of_next_some hk
    have := size_of_next_some hl
    have := ih hm
    omega
  | case7 => simp at h
  | case8 i c k hk hc hb t' found' l hl ih =>
    cases h
    have := size_of_next_some hk
    have := ih hl
    omega
  | case9 => simp at h

/-- Reads up to a character that must be there; `name` is what the text is the value of. -/
def readClosed (name : Text) (closing : Char) (i : Input) :
    EStateM.Result InputFault Input Text :=
  match i.readTo closing with
  | .ok (t, true) j => .ok t j
  | .ok (t, false) j => .error (.unterminated name closing t) j
  | .error e j => .error e j

theorem size_of_readClosed {name : Text} {closing : Char} {i j : Input} {t : Text}
    (h : i.readClosed name closing = .ok t j) : j.size < i.size := by
  unfold readClosed at h
  split at h
  · rename_i hr
    cases h
    have := size_of_readTo hr
    simp at this
    omega
  · simp at h
  · simp at h

/-! ## Several characters -/

/-- Reads the given characters, or else leaves the input as it was; tells which. -/
def readExactly : Text → Input → EStateM.Result InputFault Input Bool
  | [], i => .ok true i
  | c :: t, i =>
    match i.next with
    | .error e j => .error e j
    | .ok d j =>
      if d = some c then
        match readExactly t j with
        | .ok true k => .ok true k
        | .ok false k => .ok false (k.unread c)
        | .error e k => .error e k
      else .ok false (j.unreadOption d)

theorem size_of_readExactly {t : Text} {i j : Input} {found : Bool}
    (h : readExactly t i = .ok found j) : j.size ≤ i.size := by
  induction t generalizing i j found with
  | nil =>
    cases h
    exact Nat.le_refl _
  | cons c t ih =>
    -- Where the texts differ, all characters that agreed are put back, each by its own step of the
    -- recursion.
    unfold readExactly at h
    split at h
    · simp at h
    · rename_i d k hn
      split at h
      · rename_i hd
        subst hd
        have hs := size_of_next_some hn
        split at h
        · rename_i hr
          cases h
          have := ih hr
          omega
        · rename_i l hr
          cases h
          have := ih hr
          simp
          omega
        · simp at h
      · cases h
        exact Nat.le_of_eq (size_unreadOption_of_next hn)

/-- A reader up to one character: it takes that character if it finds it. -/
structure CharReader where
  read : Input → EStateM.Result InputFault Input (Text × Bool)
  size_le : ∀ {i j : Input} {t : Text} {found : Bool},
    read i = .ok (t, found) j → j.size + found.toNat ≤ i.size

/-- The reader that knows of no comments. -/
def plainReader (closing : Char) : CharReader := ⟨readTo closing, size_of_readTo⟩

/-- Reads through the first occurrence of the terminator `first :: others`, where `reader` reads up
to `first`; `before` is what has been read before, which a fault shows as well. -/
def readThrough (first : Char) (others : Text) (reader : CharReader) (before : Text) (i : Input) :
    EStateM.Result InputFault Input Text :=
  match _h : reader.read i with
  | .error e j => .error e j
  | .ok (t, false) j => .error (.missingTerminator (first :: others) (before ++ t)) j
  | .ok (t, true) j =>
    match _hj : readExactly others j with
    | .error e k => .error e k
    | .ok true k => .ok (before ++ t ++ first :: others) k
    | .ok false k => readThrough first others reader (before ++ t ++ [first]) k
termination_by i.size
decreasing_by
  have := reader.size_le _h
  have := size_of_readExactly _hj
  simp at *
  omega

theorem size_of_readThrough {first : Char} {others before t : Text} {reader : CharReader}
    {i j : Input} (h : readThrough first others reader before i = .ok t j) : j.size < i.size := by
  fun_induction readThrough first others reader before i generalizing t j with
  | case1 => simp at h
  | case2 => simp at h
  | case3 => simp at h
  | case4 before i t' k hr l hl =>
    cases h
    have := reader.size_le hr
    have := size_of_readExactly hl
    simp at *
    omega
  | case5 before i t' k hr l hl ih =>
    have := reader.size_le hr
    have := size_of_readExactly hl
    have := ih h
    simp at *
    omega

end Stencil.Input
