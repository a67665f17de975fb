import Mathlib.Tactic.SplitIfs
import Stencil.Proofs.Input.Trivia

/-!
# Text with its comments dropped

Reading up to a character outside comments and quotes drops the comments and keeps all else.
`Outside` relates a text that stands before the closing character to what is kept of it: characters
as they are, among them slashes and angles that begin no comment, quoted strings with their quotes,
and nothing of the comments.  No backslashes stand outside the comments.

Comments are skipped in front of the text and behind each comment in it, any number at a time, and
elsewhere they are met one by one.  It comes to the same whether those in front have been skipped or
not (`readToOutside_eq`), so that the reading can follow `Outside` constructor by constructor
(`IsLeft.readOutside_append`).  What this rests on is that a slash or an angle that begins no
comment is left as it was, and begins none when it is met again (`skipComment_again`).
`readUntil_outside` is the statement for an input that nothing has been pushed back on.
-/

namespace Stencil.Input

/-! ## What is kept -/

/-- A text that can stand before `closing`, and what is left of it without its comments.  Whether a
slash or an angle begins a comment is told by the character behind it, which may be `closing`. -/
inductive Outside (closing : Char) : Text → Text → Prop where
  | nil : Outside closing [] []
  | plain {c : Char} {s t : Text} (hc : c ≠ closing) (hq : Text.isQuote c = false)
    (hs : startsComment c = false) (hb : c ≠ '\\') (ht : Outside closing s t) :
    Outside closing (c :: s) (c :: t)
  | slash {s t : Text} (hline : (s ++ [closing]).head? ≠ some '/')
    (hblock : (s ++ [closing]).head? ≠ some '*') (ht : Outside closing s t) :
    Outside closing ('/' :: s) ('/' :: t)
  | angle {s t : Text} (hmarkup : (s ++ [closing]).head? ≠ some '!') (ht : Outside closing s t) :
    Outside closing ('<' :: s) ('<' :: t)
  | quoted {quote : Char} {body s t : Text} (hq : Text.isQuote quote = true) (hb : '\\' ∉ body)
    (hbody : quote ∉ body) (ht : Outside closing s t) :
    Outside closing (quote :: body ++ quote :: s) (quote :: body ++ quote :: t)
  | comment {u s t : Text} (hu : Comment u) (ht : Outside closing s t) : Outside closing (u ++ s) t

/-! ## What is left is left again -/

section Again

variable {c : Char} {i j : Input} {expected : Text}

/-- The end of an input is come to any number of times. -/
lemma next_of_none (h : i.next = .ok none j) : j.next = .ok none j := by
  unfold next at h
  split at h
  · cases h
  · rename_i hp
    split at h
    · cases h
    · rename_i hc
      split at h
      · rename_i hr
        cases h
        simp [next, hp, hc, hr]
      · cases h

lemma next_unread (c : Char) (i : Input) : (i.unread c).next = .ok (some c) i := rfl

/-- What has been read and pushed back is read again. -/
lemma next_unreadOption {d : Option Char} (h : i.next = .ok d j) :
    (j.unreadOption d).next = .ok d j := by
  cases d with
  | none => exact next_of_none h
  | some c => exact next_unread c j

lemma readExactly_again (h : readExactly expected i = .ok false j) :
    readExactly expected j = .ok false j := by
  -- What has been read before the failure is pushed back in order, so the second reading gets just
  -- as far.
  induction expected generalizing i j with
  | nil => cases h
  | cons c expected ih =>
    rw [readExactly] at h
    cases hnext : i.next with
    | error e l => simp [hnext] at h
    | ok d l =>
      by_cases hd : d = some c
      · subst hd
        cases hrest : readExactly expected l with
        | error e k => simp [hnext, hrest] at h
        | ok found k =>
          cases found with
          | true => simp [hnext, hrest] at h
          | false =>
            obtain rfl : k.unread c = j := by simpa [hnext, hrest] using h
            rw [readExactly, next_unread]
            simp [ih hrest]
      · obtain rfl : l.unreadOption d = j := by simpa [hnext, hd] using h
        rw [readExactly, next_unreadOption hnext]
        simp [hd]

lemma skipMarkup_again (h : i.skipMarkup = .ok false j) : j.skipMarkup = .ok false j := by
  cases hread : readExactly ['!', '-'] i with
  | error e k => simp [skipMarkup, hread] at h
  | ok found k =>
    cases found with
    | true =>
      -- Behind `!-` there is a comment or a fault.
      simp only [skipMarkup, hread] at h
      split at h
      · cases h
      · split at h <;> split at h <;> cases h
    | false =>
      obtain rfl : k = j := by simpa [skipMarkup, hread] using h
      simp [skipMarkup, readExactly_again hread]

/-- What begins no comment begins none when it is read again. -/
lemma skipComment_again (h : i.skipComment c = .ok false j) : j.skipComment c = .ok false j := by
  by_cases hhash : c = '#'
  · rw [skipComment, if_pos hhash] at h
    split at h <;> cases h
  by_cases hslash : c = '/'
  · cases hnext : i.next with
    | error e k => simp [skipComment, hslash, hnext] at h
    | ok d k =>
      rw [skipComment, if_neg hhash, if_pos hslash, hnext] at h
      simp only at h
      split at h
      · split at h <;> cases h
      · rename_i hline
        split at h
        · split at h <;> cases h
        · rename_i hblock
          cases h
          simp [skipComment, hslash, next_unreadOption hnext, hline, hblock]
  by_cases hangle : c = '<'
  · rw [skipComment, if_neg hhash, if_neg hslash, if_pos hangle] at h ⊢
    exact skipMarkup_again h
  · rw [skipComment, if_neg hhash, if_neg hslash, if_neg hangle] at h ⊢

end Again

/-! ## Reading outside comments and quotes -/

section Steps

variable {closing c : Char} {q : Text} {i j k : Input}

/-- Puts a text in front of what has been read. -/
def prepend (u : Text) : EStateM.Result InputFault Input (Text × Bool) →
    EStateM.Result InputFault Input (Text × Bool)
  | .ok (t, found) j => .ok (u ++ t, found) j
  | .error e j => .error e j

lemma readOutside_of_none (h : i.next = .ok none j) :
    i.readOutside closing = .ok ([], false) j := by
  rw [readOutside]
  grind

/-- Reading outside comments and quotes goes by the next character. -/
lemma readOutside_of_next (h : i.next = .ok (some c) j) :
    i.readOutside closing =
      if c = closing then .ok ([], true) j
      else if Text.isQuote c then
        match j.readClosed [] c with
        | .error e k => .error e k
        | .ok q k => prepend (c :: q ++ [c]) (k.readOutside closing)
      else if startsComment c then
        match j.skipComment c with
        | .error e k => .error e k
        | .ok true k => k.readToOutside closing
        | .ok false k => prepend [c] (k.readOutside closing)
      else if c = '\\' then
        match j.next with
        | .error e k => .error e k
        | .ok none k => .ok ([], false) k
        | .ok (some d) k => prepend (escaped d) (k.readOutside closing)
      else prepend [c] (j.readOutside closing) := by
  rw [readOutside]
  split
  · rename_i hnext
    cases h.symm.trans hnext
  · rename_i hnext
    cases h.symm.trans hnext
  · rename_i d m hnext
    cases h.symm.trans hnext
    -- The branches are the same; behind a comment the definition skips the others that follow,
    -- which is to read outside comments again.
    split_ifs
    · rfl
    · split
      · rename_i hread
        rw [hread]
      · rename_i k hread
        simp only [hread]
        cases readOutside closing k <;> simp [prepend]
    · split
      · rename_i hskip
        rw [hskip]
      · rename_i k hskip
        rw [hskip]
        change _ = readToOutside closing k
        rw [readToOutside]
        split <;> rename_i htrivia <;> rw [htrivia]
      · rename_i k hskip
        simp only [hskip]
        cases readOutside closing k <;> rfl
    · split
      · rename_i hescape
        rw [hescape]
      · rename_i hescape
        rw [hescape]
      · rename_i k hescape
        simp only [hescape]
        cases readOutside closing k <;> rfl
    · cases readOutside closing j <;> rfl

lemma readOutside_quoted (h : i.next = .ok (some c) j) (hc : c ≠ closing)
    (hq : Text.isQuote c = true) (hread : j.readClosed [] c = .ok q k) :
    i.readOutside closing = prepend (c :: q ++ [c]) (k.readOutside closing) := by
  rw [readOutside_of_next h, if_neg hc, if_pos hq, hread]

lemma readOutside_closing (h : i.next = .ok (some closing) j) :
    i.readOutside closing = .ok ([], true) j := by
  rw [readOutside_of_next h, if_pos rfl]

/-- What begins like a comment is dropped if it is one. -/
lemma readOutside_starting (h : i.next = .ok (some c) j) (hclosing : startsComment closing = false)
    (hs : startsComment c = true) :
    i.readOutside closing =
      match j.skipComment c with
      | .error e k => .error e k
      | .ok true k => k.readToOutside closing
      | .ok false k => prepend [c] (k.readOutside closing) := by
  have hc : c ≠ closing := by
    rintro rfl
    cases hs.symm.trans hclosing
  have hq : ¬ Text.isQuote c = true := by
    intro hq
    simp only [startsComment, Text.isQuote] at hs hq
    grind
  rw [readOutside_of_next h, if_neg hc, if_neg hq, if_pos hs]

/-- A character that begins neither a comment nor a quoted string is kept. -/
lemma readOutside_kept (h : i.next = .ok (some c) j) (hc : c ≠ closing)
    (hq : Text.isQuote c = false) (hb : c ≠ '\\') (hskip : j.skipComment c = .ok false k) :
    i.readOutside closing = prepend [c] (k.readOutside closing) := by
  rw [readOutside_of_next h, if_neg hc, if_neg (by simp [hq])]
  cases hs : startsComment c with
  | true => rw [if_pos rfl, hskip]
  | false =>
    obtain rfl : j = k := by simpa [skipComment_of_not_starts hs] using hskip
    rw [if_neg Bool.false_ne_true, if_neg hb]

/-- Comments in front of a text are dropped by reading it, too. -/
theorem readToOutside_eq (hclosing : startsComment closing = false) (i : Input) :
    i.readToOutside closing = i.readOutside closing := by
  cases hnext : i.next with
  | error e j =>
    rw [readToOutside, skipTrivia, readOutside]
    grind
  | ok o j =>
    cases o with
    | none =>
      rw [readToOutside, skipTrivia_of_none hnext, readOutside_of_none hnext]
      exact readOutside_of_none (next_of_none hnext)
    | some c =>
      have hkept : isSkipped [] c = false := by simp [isSkipped]
      rw [readToOutside, skipTrivia_of_next hnext]
      cases hs : startsComment c with
      | true =>
        -- Both look for a comment at the same character; only the first reads it a second time
        -- where there is none.
        rw [readOutside_starting hnext hclosing hs]
        cases hskip : j.skipComment c with
        | error e k => rfl
        | ok isComment k =>
          cases isComment with
          | true => rfl
          | false =>
            simp only [hkept, Bool.false_eq_true, if_false]
            rw [readOutside_starting (next_unread c k) hclosing hs, skipComment_again hskip]
      | false =>
        rw [skipComment_of_not_starts hs]
        simp only [hkept, Bool.false_eq_true, if_false]
        exact readOutside_congr closing ((next_unread c j).trans hnext.symm)

end Steps

/-! ## What reading comes to -/

section Reading

variable {closing c : Char} {s t u after : Text} {i k : Input}

lemma startsComment_of_comment (hu : Comment (c :: u)) : startsComment c = true := by
  cases hu <;> rfl

lemma head?_append_cons (s : Text) (c : Char) (t : Text) :
    (s ++ c :: t).head? = (s ++ [c]).head? := by
  cases s <;> rfl

/-- Reading goes on to the closing character, and gives what is kept of the text before it. -/
lemma IsLeft.readOutside_append (hi : i.Ready) (hquote : Text.isQuote closing = false)
    (hclosing : startsComment closing = false) (ht : Outside closing s t)
    (hk : IsLeft i (s ++ closing :: after) k) :
    k.readOutside closing = .ok (t, true) (i.leaving after) := by
  -- By induction on the description of the text; the input that is left may have looked ahead by
  -- one character, so it varies.
  induction ht generalizing k with
  | nil => exact readOutside_closing hk.next
  | plain hc hq hs hb _ ih =>
    rw [List.cons_append] at hk
    rw [readOutside_kept hk.next hc hq hb (skipComment_of_not_starts hs _),
      ih (hi.isLeft_leaving _)]
    rfl
  | slash hline hblock _ ih =>
    rw [← head?_append_cons _ _ after] at hline hblock
    rw [List.cons_append] at hk
    rw [readOutside_kept hk.next (by rintro rfl; cases hclosing) rfl (by decide)
      (hi.skipComment_slash hline hblock), ih (hi.isLeft_peeked _)]
    rfl
  | angle hmarkup _ ih =>
    rw [← head?_append_cons _ _ after] at hmarkup
    rw [List.cons_append] at hk
    rw [readOutside_kept hk.next (by rintro rfl; cases hclosing) rfl (by decide)
      (hi.skipComment_angle hmarkup), ih (hi.isLeft_peeked _)]
    rfl
  | @quoted q body s t hq hb hbody _ ih =>
    have hc : q ≠ closing := by
      rintro rfl
      cases hq.symm.trans hquote
    have hread : (i.leaving (body ++ q :: (s ++ closing :: after))).readClosed [] q =
        .ok body (i.leaving (s ++ closing :: after)) := by
      refine (hi.readClosed_iff (backslash_ne_of_isQuote hq)).2
        ⟨body, _, precedes_of_notMem hb hbody, rfl, ?_, rfl⟩
      rw [unescape_eq_self hb]
    rw [List.append_assoc, List.cons_append, List.cons_append] at hk
    rw [readOutside_quoted hk.next hc hq hread, ih (hi.isLeft_leaving _)]
    simp [prepend]
  | comment hu _ ih =>
    obtain ⟨c, v, rfl⟩ := hu.exists_cons
    rw [List.append_assoc, List.cons_append] at hk
    rw [readOutside_starting hk.next hclosing (startsComment_of_comment hu),
      hi.skipComment_append hu]
    simp only [readToOutside_eq hclosing]
    exact ih (hi.isLeft_leaving _)

/-- **Reading outside comments and quotes drops the comments and nothing else.**  Let nothing have
been pushed back on an input that is not closed, and let the closing character be no quote and none
that comments start with.  Reading up to it with comments dropped gives what is kept of the text
before it, in order, and leaves what comes after it. -/
theorem readUntil_outside (hp : i.pushback = []) (hc : i.isClosed = false)
    (hquote : Text.isQuote closing = false) (hclosing : startsComment closing = false)
    (hr : i.rest = s ++ closing :: after) (ht : Outside closing s t) :
    i.readUntil [closing] true = .ok t (i.leaving after) := by
  have hi : (i.leaving i.rest).Ready := ⟨rfl, hc⟩
  have hk : IsLeft (i.leaving i.rest) (s ++ closing :: after) (i.leaving i.rest) := by
    rw [← hr]
    exact hi.isLeft_leaving i.rest
  have hread : (i.leaving i.rest).readOutside closing = .ok (t, true) (i.leaving after) :=
    IsLeft.readOutside_append (i := i.leaving i.rest) hi hquote hclosing ht hk
  rw [readOutside_congr closing (next_leaving_rest hp)] at hread
  change (match i.readToOutside closing with
    | .ok (t, _) j => EStateM.Result.ok t j
    | .error e j => .error e j) = _
  rw [readToOutside_eq hclosing, hread]

end Reading

/-- An input with two comments in a row and a slash behind them, and with the closing character in a
comment and in quotes. -/
def annotatedInput : Input := ofText "a/*;*/# ;\n/ <'//;'; b".toList

/-- Both comments are left out, and neither the one in them nor the one in quotes is taken for the
closing character. -/
theorem readUntil_outside_commented :
    annotatedInput.pushback = [] ∧ annotatedInput.isClosed = false ∧
      Text.isQuote ';' = false ∧ startsComment ';' = false ∧
      annotatedInput.rest = "a/*;*/# ;\n/ <'//;'".toList ++ ';' :: " b".toList ∧
      Outside ';' "a/*;*/# ;\n/ <'//;'".toList "a/ <'//;'".toList ∧
      annotatedInput.readUntil [';'] true =
        .ok "a/ <'//;'".toList (annotatedInput.leaving " b".toList) := by
  have hquoted : Outside ';' "'//;'".toList "'//;'".toList :=
    @Outside.quoted ';' '\'' "//;".toList [] [] rfl (by decide) (by decide) .nil
  have hkept : Outside ';' "/ <'//;'".toList "/ <'//;'".toList :=
    .slash (by decide) (by decide) <| .plain (by decide) rfl rfl (by decide) <|
      .angle (by decide) hquoted
  have hline : Comment "# ;\n".toList :=
    .hash (@CommentLine.last " ;".toList (by decide) (by decide))
  have hblock : Comment "/*;*/".toList :=
    .block (t := [';']) (.plain (by decide) (by decide) .nil)
  have houtside : Outside ';' "a/*;*/# ;\n/ <'//;'".toList "a/ <'//;'".toList :=
    .plain (by decide) rfl rfl (by decide) <| .comment hblock (.comment hline hkept)
  exact ⟨rfl, rfl, rfl, rfl, rfl, houtside, readUntil_outside rfl rfl rfl rfl rfl houtside⟩

end Stencil.Input
