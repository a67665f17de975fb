import Mathlib.Algebra.Group.Nat.Even
import Mathlib.Data.List.DropRight
import Mathlib.Data.List.Infix
import Stencil.Proofs.Input.PushedLine

/-!
# What stands in a comment

A comment is skipped without being looked at, or should be.  In fact the body of a comment is read
as other text is: a backslash joins the line of a comment to the next one, and in front of the
terminator of a block or of markup it makes another character of the terminator's first.  So there
are bodies without a terminator in them that do not let the comment end where it should.

`CommentForm.Ends` tells the bodies that do.  The terminator that stands behind such a body is the
one that is found, and only then (`CommentForm.after?_eq_iff`); behind any other body the comment
goes on into the text that follows it (`CommentForm.suffix_of_after?`).  For terminators of several
characters this rests on their having no proper start that is an end as well (`Unbordered`), so that
none can begin in a body and end behind it.  `skipTrivia_written_iff` is the statement for an input
that nothing has been pushed back on, `skipTrivia_written_swallowed` has the bodies that fail.
-/

namespace Stencil.Input

/-! ## Backslashes at the end -/

/-- How many backslashes a text ends with. -/
def trailingBackslashes (t : Text) : Nat := (t.rtakeWhile (· == '\\')).length

lemma trailingBackslashes_cons {c : Char} (hc : c ≠ '\\') (t : Text) :
    trailingBackslashes (c :: t) = trailingBackslashes t := by
  simp only [trailingBackslashes, List.rtakeWhile, List.reverse_cons, List.takeWhile_append]
  split
  · rename_i hall
    simp [hc, hall]
  · rfl

/-- A backslash and the character that it escapes are no matter, whether this is one or not. -/
lemma even_trailingBackslashes_escape (c : Char) (t : Text) :
    Even (trailingBackslashes ('\\' :: c :: t)) ↔ Even (trailingBackslashes t) := by
  simp only [trailingBackslashes, List.rtakeWhile, List.reverse_cons, List.append_assoc,
    List.takeWhile_append, List.length_reverse]
  split
  · rename_i hall
    by_cases hc : c = '\\'
    · subst hc
      have htwo : Even 2 := ⟨1, rfl⟩
      simp [hall, Nat.even_add, htwo]
    · simp [hc, hall]
  · rfl

/-! ## Terminators that follow a body -/

/-- A terminator that does not begin in front of another and end in it. -/
def Unbordered (ending : Text) : Prop :=
  ∀ s, s ≠ [] → ending <+: s ++ ending → ending <:+: s

lemma unbordered_block : Unbordered ['*', '/'] := by
  intro s hs h
  match s with
  | [] => exact absurd rfl hs
  | [c] => simp at h
  | c :: d :: s =>
    obtain ⟨rfl, rfl⟩ : '*' = c ∧ '/' = d := by simpa using h
    exact ⟨[], s, rfl⟩

lemma unbordered_markup : Unbordered ['-', '-', '>'] := by
  intro s hs h
  match s with
  | [] => exact absurd rfl hs
  | [c] => simp at h
  | [c, d] => simp at h
  | c :: d :: e :: s =>
    obtain ⟨rfl, rfl, rfl⟩ : '-' = c ∧ '-' = d ∧ '>' = e := by simpa using h
    exact ⟨[], s, rfl⟩

section Cut

variable {ending t body rest before after : Text} {first : Char} {others : Text}

/-- A text without a terminator comes to its end in units if it ends in no backslash that is left
over. -/
lemma precedes_iff_even (he : Unbordered ending) (h : ¬ ending <:+: t) :
    Precedes ending t ↔ Even (trailingBackslashes t) := by
  -- Unescaping takes a text apart into its units.
  fun_induction unescape t with
  | case1 => exact iff_of_true .nil ⟨0, rfl⟩
  | case2 =>
    refine iff_of_false (fun hp => ?_) (by decide)
    cases hp with
    | plain hc => exact hc rfl
  | case3 c t ih =>
    have ht : ¬ ending <:+: t := fun hoccurs => h (hoccurs.trans ⟨['\\', c], [], by simp⟩)
    rw [even_trailingBackslashes_escape, ← ih ht]
    refine ⟨fun hp => ?_, .escape⟩
    cases hp with
    | plain hc => exact absurd rfl hc
    | escape hp => exact hp
  | case4 c t hc ih =>
    have ht : ¬ ending <:+: t := fun hoccurs => h (hoccurs.trans ⟨[c], [], by simp⟩)
    have hstart : ¬ ending <+: c :: (t ++ ending) := mt (he (c :: t) (by simp)) h
    rw [trailingBackslashes_cons hc, ← ih ht]
    refine ⟨fun hp => ?_, .plain hc hstart⟩
    cases hp with
    | plain _ _ hp => exact hp
    | escape => exact absurd rfl hc

/-- Behind a body without a terminator in it no other is found before the one that follows. -/
lemma suffix_of_cutUnescaped? (he : Unbordered (first :: others))
    (h : ¬ first :: others <:+: body)
    (hcut : cutUnescaped? (first :: others) (body ++ (first :: others ++ rest)) =
      some (before, after)) : after <:+ rest := by
  have hsplit := (of_cutUnescaped? hcut).2
  -- Both ways to split the text are compared: the terminator found ends behind the body, or it
  -- begins in the body or at its end.
  rcases List.append_eq_append_iff.1 hsplit with ⟨s, -, hs⟩ | ⟨s, rfl, hs⟩
  · have hlen := congrArg List.length hs
    simp only [List.length_append] at hlen
    have hafter : after <:+ first :: others ++ rest := ⟨s ++ (first :: others), by simp [hs]⟩
    exact List.suffix_of_suffix_length_le hafter (List.suffix_append _ _) (by omega)
  · cases s with
    | nil =>
      obtain rfl : after = rest := by simpa using hs
      exact List.suffix_rfl
    | cons c s =>
      -- It would begin in the body, and being without a border it would then lie in it.
      have hstart : first :: others <+: c :: s ++ (first :: others) :=
        List.prefix_of_prefix_length_le ⟨after, hs⟩ ⟨rest, by simp⟩ (by
          rw [List.length_append]
          exact Nat.le_add_left _ _)
      exact absurd ((he _ (by simp) hstart).trans (List.suffix_append _ _).isInfix) h

end Cut

/-! ## The forms of a comment -/

/-- The forms of a comment: up to the end of a line behind `#` or `//`, or up to a terminator of
several characters. -/
inductive CommentForm where
  | hash
  | slashes
  | block
  | markup
  deriving DecidableEq, Repr

namespace CommentForm

/-- What a comment begins with. -/
def opening : CommentForm → Text
  | hash => ['#']
  | slashes => ['/', '/']
  | block => ['/', '*']
  | markup => ['<', '!', '-', '-']

/-- What a comment ends with. -/
def terminator : CommentForm → Text
  | hash => ['\n']
  | slashes => ['\n']
  | block => ['*', '/']
  | markup => ['-', '-', '>']

/-- A comment with its body. -/
def written (form : CommentForm) (body : Text) : Text := form.opening ++ (body ++ form.terminator)

/-- Whether a comment ends with the terminator that follows its body: no backslash joins the line
to the next one, or escapes the terminator. -/
def Ends : CommentForm → Text → Prop
  | hash, body => (dropReturn body).getLast? ≠ some '\\'
  | slashes, body => (dropReturn body).getLast? ≠ some '\\'
  | block, body => Even (trailingBackslashes body)
  | markup, body => Even (trailingBackslashes body)

/-- What a comment leaves of the text behind its opening, unless it has no end. -/
def after? : CommentForm → Text → Option Text
  | hash, t => some (joinLines [] t).2
  | slashes, t => some (joinLines [] t).2
  | block, t => (cutUnescaped? ['*', '/'] t).map Prod.snd
  | markup, t => (cutUnescaped? ['-', '-', '>'] t).map Prod.snd

end CommentForm

section Forms

variable {form : CommentForm} {body rest u : Text} {first : Char} {others : Text}

/-- The line of a comment ends with the newline behind it, or goes on into the next one. -/
lemma joinLines_body (hbody : ¬ ['\n'] <:+: body) (hrest : rest ≠ []) :
    (joinLines [] (body ++ '\n' :: rest)).2 <:+ rest ∧
      ((joinLines [] (body ++ '\n' :: rest)).2 = rest ↔
        (dropReturn body).getLast? ≠ some '\\') := by
  have hn : '\n' ∉ body := fun h => hbody ((List.singleton_infix_iff _ _).2 h)
  by_cases hb : (dropReturn body).getLast? = some '\\'
  · rw [joinLines_joined hn hb]
    have hempty : '\n' ∉ ([] : Text) := List.not_mem_nil
    have hnext : (joinLines [] rest).2 ≠ rest := fun h => hrest (eq_nil_of_joinLines hempty h)
    exact ⟨suffix_joinLines [] rest, iff_of_false hnext (not_not_intro hb)⟩
  · rw [joinLines_line hn hb]
    exact ⟨List.suffix_rfl, iff_of_true rfl hb⟩

/-- A comment ends with the terminator behind its body, or goes on into what follows. -/
lemma cutUnescaped?_body (hf : first ≠ '\\') (he : Unbordered (first :: others))
    (hbody : ¬ first :: others <:+: body) :
    (∀ u ∈ (cutUnescaped? (first :: others) (body ++ (first :: others ++ rest))).map Prod.snd,
        u <:+ rest) ∧
      ((cutUnescaped? (first :: others) (body ++ (first :: others ++ rest))).map Prod.snd =
        some rest ↔ Even (trailingBackslashes body)) := by
  rw [← precedes_iff_even he hbody]
  refine ⟨fun u hu => ?_, fun h => ?_, fun hp => ?_⟩
  · obtain ⟨⟨b, a⟩, hcut, rfl⟩ := Option.map_eq_some_iff.1 hu
    exact suffix_of_cutUnescaped? he hbody hcut
  · obtain ⟨⟨b, a⟩, hcut, rfl⟩ := Option.map_eq_some_iff.1 h
    obtain ⟨hb, hsplit⟩ := of_cutUnescaped? hcut
    rwa [List.append_cancel_right hsplit]
  · rw [cutUnescaped?_append hf hp]
    rfl

/-- What a comment leaves is what follows its body, or a part of that. -/
lemma CommentForm.suffix_of_after? (hbody : ¬ form.terminator <:+: body) (hrest : rest ≠ [])
    (hu : form.after? (body ++ (form.terminator ++ rest)) = some u) : u <:+ rest := by
  cases form with
  | hash =>
    cases hu
    exact (joinLines_body hbody hrest).1
  | slashes =>
    cases hu
    exact (joinLines_body hbody hrest).1
  | block => exact (cutUnescaped?_body (by decide) unbordered_block hbody).1 u hu
  | markup => exact (cutUnescaped?_body (by decide) unbordered_markup hbody).1 u hu

/-- **A comment leaves what follows its body exactly if it ends there.** -/
lemma CommentForm.after?_eq_iff (hbody : ¬ form.terminator <:+: body) (hrest : rest ≠ []) :
    form.after? (body ++ (form.terminator ++ rest)) = some rest ↔ form.Ends body := by
  cases form with
  | hash => exact Option.some_inj.trans (joinLines_body hbody hrest).2
  | slashes => exact Option.some_inj.trans (joinLines_body hbody hrest).2
  | block => exact (cutUnescaped?_body (by decide) unbordered_block hbody).2
  | markup => exact (cutUnescaped?_body (by decide) unbordered_markup hbody).2

end Forms

/-! ## What skipping a comment leaves -/

section Skipping

variable {i j : Input} {form : CommentForm} {skipped body t u rest : Text} {c : Char}

/-- Skipping goes on behind a comment. -/
lemma Ready.skipTrivia_after (hi : i.Ready) (hback : i.pushback.length ≤ 1)
    (hp : i.pending = form.opening ++ t) :
    i.skipTrivia skipped =
      match form.after? t with
      | some u => (i.leaving u).skipTrivia skipped
      | none => .error (.missingTerminator form.terminator (unescape t)) (i.leaving []) := by
  cases form with
  | hash =>
    rw [hi.skipTrivia_cons hback hp, List.append_eq, List.nil_append, hi.skipComment_hash]
    rfl
  | slashes =>
    have hp' : i.pending = '/' :: '/' :: t := hp
    rw [hi.skipTrivia_cons hback hp', hi.skipComment_slashes]
    rfl
  | block =>
    have hp' : i.pending = '/' :: '*' :: t := hp
    rw [hi.skipTrivia_cons hback hp', hi.skipComment_block, skippedThrough, CommentForm.after?]
    cases cutUnescaped? ['*', '/'] t <;> rfl
  | markup =>
    have hp' : i.pending = '<' :: '!' :: '-' :: '-' :: t := hp
    rw [hi.skipTrivia_cons hback hp', hi.skipComment_markup, skippedThrough, CommentForm.after?]
    cases cutUnescaped? ['-', '-', '>'] t <;> rfl

/-- An input that is yet to be opened is opened by the first character. -/
lemma skipTrivia_after (hp : i.pushback = []) (hclosed : i.isClosed = false)
    (hr : i.rest = form.opening ++ t) :
    i.skipTrivia skipped =
      match form.after? t with
      | some u => (i.leaving u).skipTrivia skipped
      | none => .error (.missingTerminator form.terminator (unescape t)) (i.leaving []) := by
  have hi : (i.leaving i.rest).Ready := ⟨rfl, hclosed⟩
  rw [← skipTrivia_congr skipped (next_leaving_rest hp)]
  exact hi.skipTrivia_after (Nat.zero_le _) hr

/-- **What stands in a comment makes a difference only through its last backslashes.**  Let nothing
have been pushed back on an input that is not closed, and let it begin with a comment whose body has
no terminator in it, and a letter or digit behind it.  Skipping leaves exactly what follows the
comment if and only if the comment ends where its body does; otherwise it fails, or takes part of
what follows as well. -/
theorem skipTrivia_written_iff (hp : i.pushback = []) (hclosed : i.isClosed = false)
    (hbody : ¬ form.terminator <:+: body) (hc : Text.isAlphanumeric c = true)
    (hr : i.rest = form.written body ++ c :: t) :
    ((∃ j, i.skipTrivia margins = .ok () j ∧ j.pending = c :: t) ↔ form.Ends body) ∧
      ∀ j, ¬ form.Ends body → i.skipTrivia margins = .ok () j →
        j.pending.length < (c :: t).length := by
  have hparts : i.rest = form.opening ++ (body ++ (form.terminator ++ c :: t)) := by
    rw [hr, CommentForm.written, List.append_assoc, List.append_assoc]
  have hrun : i.skipTrivia margins = _ := skipTrivia_after hp hclosed hparts
  have hrest : c :: t ≠ [] := List.cons_ne_nil c t
  have hends := form.after?_eq_iff hbody hrest
  have hshort : ∀ j, ¬ form.Ends body → i.skipTrivia margins = .ok () j →
      j.pending.length < (c :: t).length := by
    intro j hnot hj
    rw [hrun] at hj
    cases hafter : form.after? (body ++ (form.terminator ++ c :: t)) with
    | none => simp [hafter] at hj
    | some u =>
      have hsuffix := form.suffix_of_after? hbody hrest hafter
      have hne : u ≠ c :: t := by
        rintro rfl
        exact hnot (hends.1 hafter)
      -- What is left is a suffix of what follows and not all of it, hence shorter; more skipping
      -- does not make it longer.
      have hlt : u.length < (c :: t).length :=
        Nat.lt_of_le_of_ne hsuffix.length_le fun hlen => hne (hsuffix.eq_of_length hlen)
      rw [hafter] at hj
      have hle := size_of_skipTrivia hj
      rw [← length_pending, ← length_pending] at hle
      exact Nat.lt_of_le_of_lt hle hlt
  refine ⟨⟨fun ⟨j, hj, hleft⟩ => ?_, fun h => ?_⟩, hshort⟩
  · by_contra hnot
    exact absurd (congrArg List.length hleft) (Nat.ne_of_lt (hshort j hnot hj))
  · have hready : (i.leaving (c :: t)).Ready := ⟨rfl, hclosed⟩
    refine ⟨(i.leaving t).unread c, ?_, rfl⟩
    rw [hrun, hends.2 h]
    exact hready.skipTrivia_ordinary (Nat.zero_le _) (.of_isAlphanumeric hc) rfl

end Skipping

/-- An input with a comment whose body ends in two backslashes. -/
def evenBackslashes : Input := ofText "/*- *\\\\*/x*/".toList

/-- Two backslashes stand for one, and the terminator behind them is found. -/
theorem skipTrivia_written_iff_even :
    evenBackslashes.pushback = [] ∧ evenBackslashes.isClosed = false ∧
      ¬ CommentForm.block.terminator <:+: "- *\\\\".toList ∧ Text.isAlphanumeric 'x' = true ∧
      evenBackslashes.rest = CommentForm.block.written "- *\\\\".toList ++ 'x' :: "*/".toList ∧
      ∃ j, evenBackslashes.skipTrivia margins = .ok () j ∧ j.pending = 'x' :: "*/".toList := by
  have hbody : ¬ CommentForm.block.terminator <:+: "- *\\\\".toList := by decide
  have hends : CommentForm.block.Ends "- *\\\\".toList := ⟨1, rfl⟩
  exact ⟨rfl, rfl, hbody, rfl, rfl, (skipTrivia_written_iff rfl rfl hbody rfl rfl).1.2 hends⟩

/-- An input with a comment on its first line, and two lines that are none. -/
def carriedComment : Input := ofText "#\\\nx\ny".toList

/-- An input with a comment that ends before its last character. -/
def escapedTerminator : Input := ofText "/*\\*/x".toList

/-- The backslash that ends the line of a comment takes the next line into it, and the one that ends
a block leaves the block without an end. -/
theorem skipTrivia_written_swallowed :
    (carriedComment.rest = CommentForm.hash.written ['\\'] ++ "x\ny".toList ∧
        ¬ CommentForm.hash.terminator <:+: ['\\'] ∧
        ∃ j, carriedComment.skipTrivia margins = .ok () j ∧ j.pending = ['y']) ∧
      escapedTerminator.rest = CommentForm.block.written ['\\'] ++ ['x'] ∧
        ¬ CommentForm.block.terminator <:+: ['\\'] ∧
        ∃ fault j, escapedTerminator.skipTrivia margins = .error fault j := by
  have hlines : (joinLines [] "\\\nx\ny".toList).2 = ['y'] := by
    have hfirst : '\n' ∉ ['\\'] := by decide
    have hsecond : '\n' ∉ ['x'] := by decide
    have hjoined := joinLines_joined hfirst (by decide) "x\ny".toList
    exact (congrArg Prod.snd hjoined).trans
      (congrArg Prod.snd (joinLines_line hsecond (by decide) ['y']))
  have hhash : carriedComment.rest = CommentForm.hash.opening ++ "\\\nx\ny".toList := rfl
  have hblock : escapedTerminator.rest = CommentForm.block.opening ++ "\\*/x".toList := rfl
  have hcarried : carriedComment.skipTrivia margins =
      (carriedComment.leaving ['y']).skipTrivia margins := by
    rw [skipTrivia_after rfl rfl hhash, CommentForm.after?, hlines]
  have hready : (carriedComment.leaving ['y']).Ready := ⟨rfl, rfl⟩
  have hleft := hready.skipTrivia_ordinary (Nat.zero_le _) (.of_isAlphanumeric rfl) rfl
  have hescaped : escapedTerminator.skipTrivia margins = .error _ _ :=
    skipTrivia_after rfl rfl hblock
  exact ⟨⟨rfl, by decide, _, hcarried.trans hleft, rfl⟩, rfl, by decide, _, _, hescaped⟩

end Stencil.Input
