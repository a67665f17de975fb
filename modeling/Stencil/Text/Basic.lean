/-!
# Texts

A text is the list of its characters, so that every length and position counts characters and
every operation is a plain list function.  This file owns the type, the classes of whitespace and
quotes, and the few searches that the rest of the library shares: cutting at a token, splitting at
a separator, trimming, and joining.
-/

namespace Stencil

/-- A text is the list of its characters. -/
abbrev Text := List Char

namespace Text

/-! ## Whitespace and quotes -/

/-- Unicode whitespace, to which the four ASCII information separators count as well. -/
def isBlank (c : Char) : Bool :=
  let n := c.toNat
  decide (9 ≤ n ∧ n ≤ 13) || decide (28 ≤ n ∧ n ≤ 32) || n == 0x85 || n == 0xA0 || n == 0x1680 ||
  decide (0x2000 ≤ n ∧ n ≤ 0x200A) || n == 0x2028 || n == 0x2029 || n == 0x202F || n == 0x205F ||
  n == 0x3000

/-- The text without its whitespace. -/
def withoutBlanks (t : Text) : Text := t.filter (!isBlank ·)

/-- The text without the characters of class `p` at either end. -/
def trimWhere (p : Char → Bool) (t : Text) : Text :=
  ((t.dropWhile p).reverse.dropWhile p).reverse

/-- The text without whitespace at either end. -/
def trim (t : Text) : Text := trimWhere isBlank t

theorem withoutBlanks_append (s t : Text) :
    withoutBlanks (s ++ t) = withoutBlanks s ++ withoutBlanks t := by
  simp [withoutBlanks]

theorem withoutBlanks_idem (t : Text) : withoutBlanks (withoutBlanks t) = withoutBlanks t := by
  simp [withoutBlanks]

/-- A text that has no whitespace is all there without it. -/
theorem withoutBlanks_eq_self {t : Text} (ht : ∀ c ∈ t, isBlank c = false) :
    withoutBlanks t = t := by
  refine List.filter_eq_self.2 fun c hc => ?_
  rw [ht c hc]
  rfl

/-- The two ways to say that no character of a text is in a class. -/
theorem eq_false_of_all {p : Char → Bool} {t : Text} (ht : t.all (!p ·) = true) :
    ∀ c ∈ t, p c = false := by
  intro c hc
  simpa using List.all_eq_true.1 ht c hc

/-- The two quotes. -/
def isQuote (c : Char) : Bool := c == '\'' || c == '"'

/-! ## Cutting and joining -/

/-- What stands before and after the first occurrence of a token. -/
def cut? (token : Text) : Text → Option (Text × Text)
  | [] => if token.isEmpty then some ([], []) else none
  | c :: t =>
    if token.isPrefixOf (c :: t) then some ([], (c :: t).drop token.length)
    else (cut? token t).map fun (before, after) => (c :: before, after)

/-- The two sides of a cut and the token between them make up the text. -/
theorem append_of_cut? {token t before after : Text} (h : cut? token t = some (before, after)) :
    before ++ token ++ after = t := by
  induction t generalizing before with
  | nil =>
    simp only [cut?] at h
    split at h
    · rename_i he
      simp only [Option.some.injEq, Prod.mk.injEq] at h
      simp [List.isEmpty_iff.1 he, ← h.1, ← h.2]
    · simp at h
  | cons c t ih =>
    simp only [cut?] at h
    split at h
    · rename_i hp
      simp only [Option.some.injEq, Prod.mk.injEq] at h
      obtain ⟨s, hs⟩ := List.isPrefixOf_iff_prefix.1 hp
      rw [← h.1, ← h.2, ← hs]
      simp
    · obtain ⟨⟨b, a⟩, hc, he⟩ := Option.map_eq_some_iff.1 h
      simp only [Prod.mk.injEq] at he
      obtain ⟨rfl, rfl⟩ := he
      rw [← ih hc]
      simp

/-- Whether a text occurs within another. -/
def occursIn (part t : Text) : Bool := (cut? part t).isSome

/-- The pieces between the occurrences of a separator; a text without it is one piece. -/
def pieces (separator : Char) : Text → List Text
  | [] => [[]]
  | c :: t =>
    if c = separator then [] :: pieces separator t
    else match pieces separator t with
      | [] => [[c]]
      | piece :: rest => (c :: piece) :: rest

/-- Texts with a separator between neighbours. -/
def join (separator : Text) : List Text → Text
  | [] => []
  | [t] => t
  | t :: rest => t ++ separator ++ join separator rest

/-- Every text has a first piece. -/
theorem pieces_ne_nil (separator : Char) (t : Text) : pieces separator t ≠ [] := by
  cases t with
  | nil => simp [pieces]
  | cons c t =>
    rw [pieces]
    split
    · simp
    · split <;> simp

/-- A separator in front is an empty piece in front. -/
theorem join_nil_cons {separator : Text} {parts : List Text} (h : parts ≠ []) :
    join separator ([] :: parts) = separator ++ join separator parts := by
  cases parts with
  | nil => exact absurd rfl h
  | cons q qs => rfl

/-- Splitting at a separator and joining with it gives the text back. -/
theorem join_pieces (separator : Char) (t : Text) : join [separator] (pieces separator t) = t := by
  induction t with
  | nil => rfl
  | cons c t ih =>
    rw [pieces]
    split
    · rename_i h
      rw [join_nil_cons (pieces_ne_nil separator t), ih, h]
      rfl
    · split
      · rename_i hp
        exact absurd hp (pieces_ne_nil separator t)
      · rename_i piece rest hp
        rw [hp] at ih
        cases rest with
        | nil => exact congrArg (c :: ·) ih
        | cons q qs => exact congrArg (c :: ·) ih

/-- The text before the first separator and, if there is one, the text after it. -/
def partition (separator : Char) (t : Text) : Text × Option Text :=
  match t.dropWhile (· != separator) with
  | [] => (t.takeWhile (· != separator), none)
  | _ :: rest => (t.takeWhile (· != separator), some rest)

/-- The text less a token it starts with. -/
def dropStart (token t : Text) : Text :=
  if token.isPrefixOf t then t.drop token.length else t

/-- The text less a token it ends with. -/
def dropEnd (token t : Text) : Text :=
  if token.isSuffixOf t then t.take (t.length - token.length) else t

end Text

end Stencil
