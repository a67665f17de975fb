import Stencil.Proofs.Input.Alike
import Stencil.Proofs.Input.PushedLine
import Stencil.Proofs.Input.Stepwise

/-!
# Looking ahead

Characters can be read and pushed back to see what comes, and a reader that follows should not
notice.  This file says how far that is so.  The readers of characters and of delimited text do not
notice at all.  Reading a line does exactly if the line has been looked at to its end and is not
even (`isEven`).  Where comments are skipped, lines are read within them; there it is enough that
what looks like a comment in the text looked at ends evenly, and that a broken comment, whose line
is shown, is literal as well (`hasEvenComments`).  Of these texts every part is one again, and so
they make a class over which inputs can be alike.

Readers of comments are taken one by one, by their recursion.  The readings that are put together
from others are `Transparent`: each passes from inputs that are alike to inputs that are alike, with
the text that it has read last, which is what the next one may push back.  The main statement is
`sameReading_lookAhead`; `readLine_lookAhead_spelled` is a line on which looking ahead shows.
-/

namespace Stencil.Input

variable {α β : Type}

/-! ## Comments among pushed-back characters -/

/-- Whether a text starts a comment to the end of the line. -/
def startsLine (t : Text) : Bool := ['#'].isPrefixOf t || ['/', '/'].isPrefixOf t

/-- Whether a text starts as `<!--` does but goes on otherwise. -/
def startsBroken (t : Text) : Bool :=
  ['<', '!', '-'].isPrefixOf t && !(['<', '!', '-', '-'].isPrefixOf t)

/-- Whether the line that a text starts with is read alike wherever it stands, as far as a comment
depends on it: of a broken comment the line is shown, of others it is dropped. -/
def isEvenComment (t : Text) : Bool :=
  (!startsLine t || endsEvenly t) && (!startsBroken t || endsEvenly t && isLiteral t)

/-- Whether all that looks like a comment in a text is read alike wherever it stands. -/
def hasEvenComments (t : Text) : Bool := t.tails.all isEvenComment

lemma startsBroken_append {t : Text} (h : startsBroken t = true) (u : Text) :
    startsBroken (t ++ u) = true ∨ t = ['<', '!', '-'] := by
  simp only [startsBroken, Bool.and_eq_true, List.isPrefixOf_iff_prefix] at h ⊢
  obtain ⟨⟨v, rfl⟩, hnot⟩ := h
  cases v with
  | nil => exact .inr rfl
  | cons d v => exact .inl ⟨⟨d :: v ++ u, by simp⟩, by simpa [List.isPrefixOf] using hnot⟩

lemma startsLine_append {t : Text} (h : startsLine t = true) (u : Text) :
    startsLine (t ++ u) = true := by
  simp only [startsLine, Bool.or_eq_true, List.isPrefixOf_iff_prefix] at h ⊢
  exact h.imp (·.trans (List.prefix_append t u)) (·.trans (List.prefix_append t u))

lemma isEvenComment_of_append {t u : Text} (h : isEvenComment (t ++ u) = true) :
    isEvenComment t = true := by
  simp only [isEvenComment, Bool.and_eq_true, Bool.or_eq_true, Bool.not_eq_true'] at h ⊢
  obtain ⟨hline, hbroken⟩ := h
  constructor
  · cases ht : startsLine t with
    | false => exact .inl rfl
    | true =>
      have hends := hline.resolve_left (by simp [startsLine_append ht u])
      exact .inr (endsEvenly_of_append hends)
  · cases ht : startsBroken t with
    | false => exact .inl rfl
    | true =>
      rcases startsBroken_append ht u with htu | rfl
      · obtain ⟨hends, hliteral⟩ := hbroken.resolve_left (by simp [htu])
        exact .inr ⟨endsEvenly_of_append hends, isLiteral_of_append hliteral⟩
      · exact .inr ⟨by decide, by decide⟩

/-- The texts in which all that looks like a comment is read alike wherever it stands. -/
def evenComments : PartClass where
  Has t := hasEvenComments t = true
  of_infix := by
    rintro s _ ⟨u, v, rfl⟩ h
    simp only [hasEvenComments, List.all_eq_true, List.mem_tails] at h ⊢
    intro w hw
    obtain ⟨x, rfl⟩ := hw
    exact isEvenComment_of_append (h (w ++ v) ⟨u ++ x, by simp⟩)

/-! ## Readers of comments -/

section Readers

variable {P : PartClass} {s : Text} {i j i' j' : Input} {c : Char}

/-- Lines are read alike if they end evenly among the pushed-back characters; so are their texts, if
they are literal. -/
lemma Alike.readLine (h : Alike P s i j)
    (hends : i.pushback = j.pushback ∨
      endsEvenly i.pushback = true ∧ endsEvenly j.pushback = true) :
    ∃ t i' u j', i.readLine = .ok t i' ∧ j.readLine = .ok u j' ∧ Alike P [] i' j' ∧
      (i.pushback = j.pushback ∨ isLiteral i.pushback = true ∧ isLiteral j.pushback = true →
        t = u) := by
  obtain ⟨i', hi, hpi, hti, hci, hbi⟩ := exists_readLine h.left
  obtain ⟨j', hj, hpj, htj, hcj, hbj⟩ := exists_readLine h.right
  have hpending : i.pushback ++ i.rest = j.pushback ++ j.rest := h.pending
  have hsame : i.pushback = j.pushback →
      currentLine i.pushback i.rest = currentLine j.pushback j.rest := by
    intro hb
    rw [hb] at hpending
    rw [hb, List.append_cancel_left hpending]
  refine ⟨_, i', _, j', hi, hj, ⟨?_, by rw [hti, htj, h.targets], hci, hcj, ?_⟩, ?_⟩
  · rw [hpi, hpj]
    rcases hends with hb | ⟨hei, hej⟩
    · rw [hsame hb]
    · rw [currentLine_snd hei, currentLine_snd hej, hpending]
  · rw [hbi, hbj]
    refine h.pushback.imp (fun hb => by rw [hb]) fun hP => ?_
    exact ⟨P.of_infix ((isInfix_left _).trans (List.suffix_append s _).isInfix) hP.1,
      P.of_infix ((isInfix_left _).trans (List.suffix_append s _).isInfix) hP.2⟩
  · rintro (hb | ⟨hli, hlj⟩)
    · rw [hsame hb]
    · rcases hends with hb | ⟨hei, hej⟩
      · rw [hsame hb]
      · rw [(currentLine_eq_iff _ _).2 (isEven_of_isLiteral hei hli _),
          (currentLine_eq_iff _ _).2 (isEven_of_isLiteral hej hlj _), hpending]

/-- What starts a text that has only even comments is one. -/
lemma isEvenComment_of_has {t : Text} (h : evenComments.Has t) : isEvenComment t = true :=
  List.all_eq_true.1 h t ((List.mem_tails _ _).2 List.suffix_rfl)

/-- The line of a comment whose start has been read. -/
lemma Alike.readLine_comment (h : Alike evenComments s i j) (hs : ∀ t, startsLine (s ++ t) = true)
    (hplain : ∀ c ∈ s, endsLine c = false) :
    ∃ t i' u j', i.readLine = .ok t i' ∧ j.readLine = .ok u j' ∧ Alike evenComments [] i' j' := by
  have hends : ∀ t, evenComments.Has (s ++ t) → endsEvenly t = true := by
    intro t ht
    have hcomment := isEvenComment_of_has ht
    rw [isEvenComment, hs t] at hcomment
    exact endsEvenly_of_plain_append hplain (by simpa using (Bool.and_eq_true_iff.1 hcomment).1)
  obtain ⟨t, i', u, j', hi, hj, h', -⟩ :=
    h.readLine (h.pushback.imp_right fun hp => ⟨hends _ hp.1, hends _ hp.2⟩)
  exact ⟨t, i', u, j', hi, hj, h'⟩

/-- The line of a broken comment, which has been put back. -/
lemma Alike.readLine_broken (h : Alike evenComments [] i j) (hi : startsBroken i.pushback = true)
    (hj : startsBroken j.pushback = true) :
    ∃ t i' j', i.readLine = .ok t i' ∧ j.readLine = .ok t j' ∧ Alike evenComments [] i' j' := by
  have heven : ∀ t, startsBroken t = true → evenComments.Has ([] ++ t) →
      endsEvenly t = true ∧ isLiteral t = true := by
    intro t ht hhas
    have hcomment := isEvenComment_of_has hhas
    rw [List.nil_append, isEvenComment, ht] at hcomment
    simpa using (Bool.and_eq_true_iff.1 hcomment).2
  have hends := h.pushback.imp_right fun hp =>
    And.intro (heven _ hi hp.1).1 (heven _ hj hp.2).1
  have hliteral := h.pushback.imp_right fun hp =>
    And.intro (heven _ hi hp.1).2 (heven _ hj hp.2).2
  obtain ⟨t, i', u, j', hri, hrj, h', heq⟩ := h.readLine hends
  exact ⟨t, i', j', hri, by rw [heq hliteral, hrj], h'⟩

/-- A broken comment that has been put back is at the start of what has been. -/
lemma startsBroken_unread {d : Option Char} (hi : i.next = .ok d j) (hd : d ≠ some '-') :
    startsBroken
      (((((j.unreadOption d).unread '-').unread '!').unread '<').pushback) = true := by
  cases d with
  | none =>
    have hnil : j.pushback = [] := (List.append_eq_nil_iff.1 (pending_of_next_none hi).2).1
    simp [Input.unread, Input.unreadOption, hnil, startsBroken]
  | some d =>
    have hne : '-' ≠ d := fun h => hd (by rw [h])
    simp [Input.unread, Input.unreadOption, startsBroken, List.isPrefixOf, hne]

lemma level_skipMarkup (h : Alike evenComments ['<'] i j) :
    Level (fun b => Alike evenComments (if b then [] else ['<'])) i.skipMarkup j.skipMarkup := by
  unfold skipMarkup
  rcases (level_readExactly (t := ['!', '-']) h).cases with
    ⟨b, k, l, hk, hl, h'⟩ | ⟨e, k, l, hk, hl, hp⟩
  · simp only [hk, hl]
    cases b with
    | false => exact ⟨rfl, h'⟩
    | true =>
      obtain ⟨d, k', l', hk', hl', h''⟩ := h'.next
      simp only [hk', hl']
      by_cases hd : d = some '-'
      · simp only [if_pos hd]
        rcases (level_readThrough_plain h''.nil '-' ['-', '>'] []).cases with
          ⟨t, k, l, hk, hl, h'⟩ | ⟨e, k, l, hk, hl, hp⟩
        · simp only [hk, hl]
          exact ⟨rfl, h'⟩
        · simp only [hk, hl]
          exact ⟨rfl, hp⟩
      · simp only [if_neg hd]
        -- All four characters are put back, and the line that they start is read.
        have hback : Alike evenComments []
            ((((k'.unreadOption d).unread '-').unread '!').unread '<')
            ((((l'.unreadOption d).unread '-').unread '!').unread '<') :=
          Alike.unread (s := []) (Alike.unread (s := ['<']) (Alike.unread (s := ['<', '!'])
            h''.unreadOption))
        obtain ⟨t, k, l, hk, hl, hkl⟩ := hback.readLine_broken (startsBroken_unread hk' hd)
          (startsBroken_unread hl' hd)
        simp only [hk, hl]
        exact ⟨rfl, hkl.pending⟩
  · simp only [hk, hl]
    exact ⟨rfl, hp⟩

lemma level_skipComment (h : Alike evenComments [c] i j) :
    Level (fun b => Alike evenComments (if b then [] else [c])) (i.skipComment c)
      (j.skipComment c) := by
  unfold skipComment
  split
  · subst c
    obtain ⟨t, k, u, l, hk, hl, h'⟩ := h.readLine_comment (fun _ => rfl) (by simp [endsLine])
    simp only [hk, hl]
    exact ⟨rfl, h'⟩
  · split
    · subst c
      obtain ⟨d, k, l, hk, hl, h'⟩ := h.next
      simp only [hk, hl]
      by_cases hslash : d = some '/'
      · subst hslash
        obtain ⟨t, k, u, l, hk, hl, h''⟩ := h'.readLine_comment (fun _ => rfl) (by simp [endsLine])
        simp only [if_pos, hk, hl]
        exact ⟨rfl, h''⟩
      · simp only [if_neg hslash]
        by_cases hstar : d = some '*'
        · simp only [if_pos hstar]
          rcases (level_readThrough_plain h'.nil '*' ['/'] []).cases with
            ⟨t, k, l, hk, hl, h'⟩ | ⟨e, k, l, hk, hl, hp⟩
          · simp only [hk, hl]
            exact ⟨rfl, h'⟩
          · simp only [hk, hl]
            exact ⟨rfl, hp⟩
        · simp only [if_neg hstar]
          exact ⟨rfl, h'.unreadOption⟩
    · split
      · subst c
        exact level_skipMarkup h
      · exact ⟨rfl, h⟩

grind_pattern level_skipComment => Alike evenComments [c] i j, i.skipComment c

lemma level_skipTrivia (h : Alike evenComments [] i j) (skipped : Text) :
    Level (fun _ => Alike evenComments []) (i.skipTrivia skipped) (j.skipTrivia skipped) := by
  fun_induction skipTrivia skipped i generalizing j with grind [skipTrivia]

grind_pattern level_skipTrivia => Alike evenComments [] i j, i.skipTrivia skipped

lemma level_readOutside (h : Alike evenComments [] i j) (closing : Char) :
    Level (fun _ => Alike evenComments []) (i.readOutside closing) (j.readOutside closing) := by
  fun_induction readOutside closing i generalizing j with grind [readOutside]

grind_pattern level_readOutside => Alike evenComments [] i j, i.readOutside closing

lemma level_readToOutside (h : Alike evenComments [] i j) (closing : Char) :
    Level (fun _ => Alike evenComments []) (i.readToOutside closing)
      (j.readToOutside closing) := by
  fun_cases readToOutside closing i with grind [readToOutside]

lemma level_readItems (h : Alike evenComments [] i j) (closing : Text) (c : Option Char) :
    Level (fun _ => Alike evenComments []) (i.readItems closing c) (j.readItems closing c) := by
  fun_induction readItems closing c i generalizing j with
  | case6 i c hc hq item k hk l hl d m hm items n hn ih =>
    -- The second input follows the first one step after the other; every other case ends at once.
    obtain ⟨k', hk', h⟩ := (hk ▸ level_readClosed h [] c).of_ok
    obtain ⟨l', hl', h⟩ := (hl ▸ level_skipTrivia h itemMargins).of_ok
    obtain ⟨m', hm', h⟩ := h.of_next hm
    obtain ⟨n', hn', h⟩ := (hn ▸ ih h.nil).of_ok
    clear ih
    grind [readItems]
  | case7 i c hc hq item k hk l hl d m hm fault n hn ih =>
    obtain ⟨k', hk', h⟩ := (hk ▸ level_readClosed h [] c).of_ok
    obtain ⟨l', hl', h⟩ := (hl ▸ level_skipTrivia h itemMargins).of_ok
    obtain ⟨m', hm', h⟩ := h.of_next hm
    obtain ⟨n', hn', h⟩ := (hn ▸ ih h.nil).of_error
    clear ih
    grind [readItems]
  | _ => grind [readItems]

end Readers

/-! ## Composed readings -/

/-- A reading that comes to the same on two inputs that are alike, `s` having been read last, and
leaves inputs that are alike, where `t` is what it has read last. -/
structure Transparent (s : Text) (x : Reading α) (t : α → Text) : Prop where
  run : ∀ {i j : Input}, Alike evenComments s i j →
    Level (fun a => Alike evenComments (t a)) (x i) (x j)

namespace Transparent

variable {s : Text}

protected lemma pure (a : α) : Transparent s (pure a) fun _ => [] := ⟨fun h => ⟨rfl, h.nil⟩⟩

protected lemma bind {x : Reading α} {f : α → Reading β} {t : α → Text} {u : β → Text}
    (hx : Transparent s x t) (hf : ∀ a, Transparent (t a) (f a) u) :
    Transparent s (x >>= f) u := by
  refine ⟨fun {i j} h => ?_⟩
  rcases (hx.run h).cases with ⟨a, i', j', hi, hj, h'⟩ | ⟨e, i', j', hi, hj, hp⟩
  · rw [bind_of_ok hi, bind_of_ok hj]
    exact (hf a).run h'
  · rw [bind_of_error hi, bind_of_error hj]
    exact ⟨rfl, hp⟩

/-- What has been read before may be forgotten. -/
lemma forget {x : Reading α} {t : α → Text} (hx : Transparent [] x t) : Transparent s x t :=
  ⟨fun h => hx.run h.nil⟩

end Transparent

lemma transparent_nextPart : Transparent [] nextPart Option.toList := by
  refine .bind ⟨fun h => level_skipTrivia h _⟩ fun _ => ⟨fun {i j} h => ?_⟩
  obtain ⟨c, i', j', hi, hj, h'⟩ := h.next
  rw [hi, hj]
  exact ⟨rfl, h'⟩

/-- Pushing back what was read last. -/
lemma transparent_giveBack (c : Option Char) :
    Transparent c.toList (giveBack c) fun _ => [] :=
  ⟨fun h => ⟨rfl, Alike.unreadOption (s := []) h⟩⟩

/-- Pushing back a character that makes no comment of what has been pushed back. -/
lemma Alike.unread_of {i j : Input} {c : Char} (h : Alike evenComments [] i j)
    (hi : isEvenComment (c :: i.pushback) = true) (hj : isEvenComment (c :: j.pushback) = true) :
    Alike evenComments [] (i.unread c) (j.unread c) := by
  have hcons : ∀ t, isEvenComment (c :: t) = true → evenComments.Has t →
      evenComments.Has (c :: t) := by
    intro t ht hhas
    simpa only [evenComments, hasEvenComments, List.tails_cons, List.all_cons, ht,
      Bool.true_and] using hhas
  exact {
    pending := by simp [h.pending]
    targets := h.targets
    left := h.left
    right := h.right
    pushback := h.pushback.imp (fun hb => by simp [Input.unread, hb]) fun hp =>
      ⟨hcons _ hi hp.1, hcons _ hj hp.2⟩ }

lemma isEvenComment_cons {c : Char} (hc : startsComment c = false) (t : Text) :
    isEvenComment (c :: t) = true := by
  obtain ⟨⟨hhash, hslash⟩, hmarkup⟩ : (c ≠ '#' ∧ c ≠ '/') ∧ c ≠ '<' := by
    simpa [startsComment] using hc
  simp [isEvenComment, startsLine, startsBroken, List.isPrefixOf, hhash.symm, hslash.symm,
    hmarkup.symm]

lemma transparent_giveBack_plain {c : Char} (hc : startsComment c = false) :
    Transparent [] (giveBack (some c)) fun _ => [] :=
  ⟨fun h => ⟨rfl, h.unread_of (isEvenComment_cons hc _) (isEvenComment_cons hc _)⟩⟩

/-- Inputs that are alike allow the same targets. -/
lemma transparent_targets {s : Text} {f : List Text → Reading α} {t : α → Text}
    (hf : ∀ targets, Transparent s (f targets) t) :
    Transparent s (do f (← get).targets) t := by
  refine ⟨fun {i j} h => ?_⟩
  change Level _ (f i.targets i) (f j.targets j)
  rw [h.targets]
  exact (hf j.targets).run h

/-- Nothing is left where the character has not been found. -/
lemma pending_of_readOutside {closing : Char} {i j : Input} {t : Text}
    (h : i.readOutside closing = .ok (t, false) j) : j.pending = [] := by
  fun_induction readOutside closing i generalizing t j with grind [→ pending_of_next_none]

lemma pending_of_readToOutside {closing : Char} {i j : Input} {t : Text}
    (h : i.readToOutside closing = .ok (t, false) j) : j.pending = [] := by
  unfold readToOutside at h
  split at h
  · cases h
  · exact pending_of_readOutside h

/-- The end of a tag that has been pushed back starts no comment. -/
lemma isEvenComment_endTag (t : Text) : isEvenComment ('/' :: '>' :: t) = true := by
  simp [isEvenComment, startsLine, startsBroken, List.isPrefixOf]

lemma transparent_readUnquoted (start : Text) :
    Transparent [] (readUnquoted start) fun _ => [] := by
  refine ⟨fun {i j} h => ?_⟩
  unfold readUnquoted
  rcases (level_readToOutside h '>').cases with
    ⟨⟨t, found⟩, i', j', hi, hj, h'⟩ | ⟨e, i', j', hi, hj, hp⟩
  · rw [bind_of_ok hi, bind_of_ok hj]
    have hrest : ∀ {k l : Input}, Alike evenComments [] k l →
        isEvenComment ('/' :: k.pushback) = true → isEvenComment ('/' :: l.pushback) = true →
        Level (fun _ => Alike evenComments [])
          ((if t.getLast? = some '/' then do
              giveBack (some '/')
              return start ++ Text.trim t.dropLast
            else return start ++ t : Reading Text) k)
          ((if t.getLast? = some '/' then do
              giveBack (some '/')
              return start ++ Text.trim t.dropLast
            else return start ++ t : Reading Text) l) := by
      intro k l hkl hk hl
      split
      · exact ⟨rfl, hkl.unread_of hk hl⟩
      · exact ⟨rfl, hkl⟩
    cases found with
    | true =>
      exact hrest (h'.unread_of (isEvenComment_cons rfl _) (isEvenComment_cons rfl _))
        (isEvenComment_endTag _) (isEvenComment_endTag _)
    | false =>
      -- Where the end of the input has been reached, nothing has been pushed back.
      have hnone : ∀ {k l : Input}, k.readToOutside '>' = .ok (t, false) l →
          isEvenComment ('/' :: l.pushback) = true := by
        intro k l hk
        rw [(List.append_eq_nil_iff.1 (pending_of_readToOutside hk)).1]
        decide
      exact hrest h' (hnone hi) (hnone hj)
  · rw [bind_of_error hi, bind_of_error hj]
    exact ⟨rfl, hp⟩

/-- No step notices what has been looked at. -/
def transparent : Stepwise where
  Holds := Transparent
  pure := .pure
  throw _ := ⟨fun h => ⟨rfl, h.pending⟩⟩
  bind := .bind
  forget := .forget
  targets := transparent_targets
  sign hf _ := .bind (transparent_giveBack_plain rfl) fun _ => .bind transparent_nextPart hf
  nextPart := transparent_nextPart
  giveBack := transparent_giveBack
  readToken _ := ⟨fun h => level_readWhile h _⟩
  readClosed name closing := ⟨fun h => level_readClosed h name closing⟩
  readItems closing c := ⟨fun h => level_readItems h closing c⟩
  readUnquoted := transparent_readUnquoted

lemma transparent_readList (closing : Text) : Transparent [] (readList closing) fun _ => [] :=
  transparent.readList closing

lemma transparent_readPair (default? : Option Text) (requireQuotes : Bool) (extra : Text) :
    Transparent [] (readPair default? requireQuotes extra) fun _ => [] :=
  transparent.readPair default? requireQuotes extra

/-! ## Looking ahead -/

/-- Reads a number of characters and pushes them back, the last one first. -/
def lookAhead : Nat → Reading Unit
  | 0 => pure ()
  | n + 1 => do
    let c ← (next : Reading (Option Char))
    lookAhead n
    giveBack c

/-- Looking ahead moves text from the source to the pushed-back characters. -/
lemma exists_lookAhead (n : Nat) {i : Input} (hp : i.pushback = []) (hc : i.isClosed = false) :
    ∃ j, lookAhead n i = .ok () j ∧ j.pushback = i.rest.take n ∧ j.rest = i.rest.drop n ∧
      j.targets = i.targets ∧ j.isClosed = false := by
  induction n generalizing i with
  | zero => exact ⟨i, rfl, hp, rfl, rfl, hc⟩
  | succ n ih =>
    obtain ⟨origin, pushback, rest, isOpen, isClosed, targets⟩ := i
    obtain ⟨rfl, rfl⟩ : pushback = [] ∧ isClosed = false := ⟨hp, hc⟩
    cases rest with
    | nil =>
      obtain ⟨j, hj, hback, hrest, htargets, hclosed⟩ :=
        ih (i := { origin, rest := [], isOpen := true, targets }) rfl rfl
      refine ⟨j, ?_, by simpa using hback, by simpa using hrest, htargets, hclosed⟩
      rw [lookAhead, bind_of_ok (x := next) rfl, bind_of_ok hj]
      rfl
    | cons c rest =>
      obtain ⟨j, hj, hback, hrest, htargets, hclosed⟩ :=
        ih (i := { origin, rest, isOpen := true, targets }) rfl rfl
      refine ⟨j.unread c, ?_, by simpa [unread] using hback, hrest, htargets, hclosed⟩
      rw [lookAhead, bind_of_ok (x := next) rfl, bind_of_ok hj]
      rfl

/-- The readings that an input offers. -/
inductive Operation : Type → Type where
  | readLine : Operation Text
  | skipAny (skipped : Text) : Operation Unit
  | skipTrivia (skipped : Text) : Operation Unit
  | readToken (extra : Text) : Operation Text
  | readUntil (ending : Text) (dropComments : Bool) : Operation Text
  | readList (closing : Text) : Operation (List Text)
  | readPair (default? : Option Text) (requireQuotes : Bool) (extra : Text) : Operation Pair

namespace Operation

/-- What an operation does. -/
def run : Operation α → Reading α
  | .readLine => Input.readLine
  | .skipAny skipped => Input.skipAny skipped
  | .skipTrivia skipped => Input.skipTrivia skipped
  | .readToken extra => Input.readToken extra
  | .readUntil ending dropComments => Input.readUntil ending dropComments
  | .readList closing => Input.readList closing
  | .readPair default? requireQuotes extra => Input.readPair default? requireQuotes extra

/-- What an operation does after looking ahead. -/
def runAfter (n : Nat) (op : Operation α) : Reading α := do
  lookAhead n
  op.run

/-- What an operation needs of the text `pushed` that has been pushed back, and of the text `after`
that follows it in the source.  Operations that do not read lines need nothing. -/
def Even : Operation α → Text → Text → Prop
  | .readLine, pushed, after => isEven pushed after = true
  | .skipAny _, _, _ => True
  | .readToken _, _, _ => True
  | .readUntil _ dropComments, pushed, _ => dropComments = true → hasEvenComments pushed = true
  | .skipTrivia _, pushed, _ => hasEvenComments pushed = true
  | .readList _, pushed, _ => hasEvenComments pushed = true
  | .readPair _ _ _, pushed, _ => hasEvenComments pushed = true

end Operation

/-- Two outcomes of one value or fault that leave the same text to be read. -/
inductive SameReading : EStateM.Result InputFault Input α → EStateM.Result InputFault Input α → Prop
  | value (a : α) {i j : Input} (h : i.pending = j.pending) : SameReading (.ok a i) (.ok a j)
  | fault (e : InputFault) {i j : Input} (h : i.pending = j.pending) :
    SameReading (.error e i) (.error e j)

lemma sameReading_ok_iff {a b : α} {i j : Input} :
    SameReading (.ok a i) (.ok b j) ↔ a = b ∧ i.pending = j.pending :=
  ⟨fun | .value _ h => ⟨rfl, h⟩, fun ⟨hab, h⟩ => hab ▸ .value a h⟩

lemma Level.sameReading {P : PartClass} {t : α → Text}
    {r r' : EStateM.Result InputFault Input α} (h : Level (fun a => Alike P (t a)) r r') :
    SameReading r r' := by
  rcases h.cases with ⟨a, i, j, rfl, rfl, ha⟩ | ⟨e, i, j, rfl, rfl, hp⟩
  · exact .value a ha.pending
  · exact .fault e hp

/-- All texts. -/
def anyText : PartClass := ⟨fun _ => True, fun _ _ => trivial⟩

lemma level_readUntil {P : PartClass} {i j : Input} (h : Alike P [] i j) (ending : Text)
    {dropComments : Bool}
    (hr : ∀ c {i j}, Alike P [] i j → Level (fun _ => Alike P [])
      ((if dropComments then outsideReader c else plainReader c).read i)
      ((if dropComments then outsideReader c else plainReader c).read j)) :
    Level (fun _ => Alike P []) (i.readUntil ending dropComments)
      (j.readUntil ending dropComments) := by
  cases ending with
  | nil => exact ⟨rfl, h⟩
  | cons c rest =>
    cases rest with
    | nil =>
      rcases (hr c h).cases with ⟨a, i', j', hi, hj, h'⟩ | ⟨e, i', j', hi, hj, hp⟩
      · simp only [readUntil, hi, hj]
        exact ⟨rfl, h'⟩
      · simp only [readUntil, hi, hj]
        exact ⟨rfl, hp⟩
    | cons d rest => exact level_readThrough h c (d :: rest) (hr c) []

lemma level_skipAny {P : PartClass} {i j : Input} (h : Alike P [] i j) (skipped : Text) :
    Level (fun _ => Alike P []) (i.skipAny skipped) (j.skipAny skipped) := by
  unfold skipAny
  rcases (level_readWhile h skipped.contains).cases with
    ⟨a, i', j', hi, hj, h'⟩ | ⟨e, i', j', hi, hj, hp⟩
  · simp only [hi, hj]
    exact ⟨rfl, h'⟩
  · simp only [hi, hj]
    exact ⟨rfl, hp⟩

section LookAhead

variable {i : Input} (hp : i.pushback = []) (hc : i.isClosed = false) (n : Nat)

include hp hc

/-- Looking ahead leaves inputs alike where what has been looked at is in a class of texts. -/
lemma sameReading_of_level {P : PartClass} (hP : P.Has (i.rest.take n)) {op : Operation α}
    {t : α → Text}
    (hop : ∀ {j}, Alike P [] j i → Level (fun a => Alike P (t a)) (op.run j) (op.run i)) :
    SameReading (op.runAfter n i) (op.run i) := by
  obtain ⟨j, hj, hback, hrest, htargets, hclosed⟩ := exists_lookAhead n hp hc
  rw [Operation.runAfter, bind_of_ok hj]
  refine (hop ⟨?_, htargets, hclosed, hc, .inr ⟨?_, ?_⟩⟩).sameReading
  · rw [pending, pending, hback, hrest, hp, List.take_append_drop, List.nil_append]
  · rwa [List.nil_append, hback]
  · rw [List.nil_append, hp]
    exact P.of_infix List.nil_infix hP

/-- A line is read as without looking ahead exactly if what has been looked at is even. -/
lemma sameReading_readLine_iff :
    SameReading (Operation.readLine.runAfter n i) (Operation.readLine.run i) ↔
      isEven (i.rest.take n) (i.rest.drop n) = true := by
  obtain ⟨j, hj, hback, hrest, -, hclosed⟩ := exists_lookAhead n hp hc
  obtain ⟨i', hi', hpi, -⟩ := exists_readLine hc
  obtain ⟨j', hj', hpj, -⟩ := exists_readLine hclosed
  have hfresh : currentLine i.pushback i.rest = joinLines [] i.rest := by
    rw [hp, currentLine_of_plain (by simp), List.nil_append]
  rw [Operation.runAfter, bind_of_ok hj]
  change SameReading j.readLine i.readLine ↔ _
  rw [hi', hj', ← currentLine_eq_iff, List.take_append_drop, ← hback, ← hrest,
    sameReading_ok_iff, hpi, hpj, hfresh, Prod.ext_iff]

/-- **Looking ahead is not noticed**, as long as lines that have been looked at to their end are
read as those of the source.  Let nothing have been pushed back on an input that is not closed.  To
read any number of its characters and to push them back changes neither the value or fault of an
operation nor the text it leaves: of skipping and reading tokens or delimited texts in any case, and
of those that skip comments if the comments looked at are even.  Reading a line is not changed
exactly if the line looked at is even. -/
theorem sameReading_lookAhead :
    (∀ (α : Type) (op : Operation α), op.Even (i.rest.take n) (i.rest.drop n) →
      SameReading (op.runAfter n i) (op.run i)) ∧
    (SameReading (Operation.readLine.runAfter n i) (Operation.readLine.run i) →
      Operation.readLine.Even (i.rest.take n) (i.rest.drop n)) := by
  refine ⟨fun α op heven => ?_, (sameReading_readLine_iff hp hc n).1⟩
  -- Each operation keeps inputs alike for the class of pushbacks it asks for; only a line looks at
  -- what has been pushed back.
  cases op with
  | readLine => exact (sameReading_readLine_iff hp hc n).2 heven
  | skipAny skipped =>
    exact sameReading_of_level hp hc n (P := anyText) trivial fun h => level_skipAny h skipped
  | readToken extra =>
    exact sameReading_of_level hp hc n (P := anyText) trivial fun h => level_readWhile h _
  | readUntil ending dropComments =>
    cases dropComments with
    | false =>
      exact sameReading_of_level hp hc n (P := anyText) trivial fun h =>
        level_readUntil h ending fun c _ _ h => level_readTo h c
    | true =>
      exact sameReading_of_level hp hc n (P := evenComments) (heven rfl) fun h =>
        level_readUntil h ending fun c _ _ h => level_readToOutside h c
  | skipTrivia skipped =>
    exact sameReading_of_level hp hc n (P := evenComments) heven fun h => level_skipTrivia h skipped
  | readList closing =>
    exact sameReading_of_level hp hc n (P := evenComments) heven (transparent_readList closing).run
  | readPair default? requireQuotes extra =>
    exact sameReading_of_level hp hc n (P := evenComments) heven
      (transparent_readPair default? requireQuotes extra).run

end LookAhead

/-- An input with a comment within a pair, and with carriage returns in the quoted value. -/
def commentedInput : Input := ofText "a # \\n it\n= 'b\r\n\n'".toList

/-- The whole comment has been looked at; its line would not be read alike, for its text. -/
theorem sameReading_lookAhead_commented :
    commentedInput.pushback = [] ∧ commentedInput.isClosed = false ∧
      (Operation.readPair none true []).Even (commentedInput.rest.take 17)
        (commentedInput.rest.drop 17) ∧
      SameReading ((Operation.readPair none true []).runAfter 17 commentedInput)
        ((Operation.readPair none true []).run commentedInput) ∧
      ¬ SameReading (Operation.readLine.runAfter 17 commentedInput)
        (Operation.readLine.run commentedInput) := by
  have hp : commentedInput.pushback = [] := rfl
  have hc : commentedInput.isClosed = false := rfl
  have hpair : (Operation.readPair none true []).Even (commentedInput.rest.take 17)
      (commentedInput.rest.drop 17) := by
    change hasEvenComments _ = true
    decide
  have hline : ¬ Operation.readLine.Even (commentedInput.rest.take 17)
      (commentedInput.rest.drop 17) := by
    change ¬ isEven _ _ = true
    decide
  exact ⟨hp, hc, hpair, (sameReading_lookAhead hp hc 17).1 _ _ hpair,
    mt (sameReading_lookAhead hp hc 17).2 hline⟩

/-- An input with two lines, in the first of which a newline is spelled. -/
def spelledInput : Input := ofText "a\\nb\nc".toList

/-- A line that has been looked at to its end keeps the backslash and the letter. -/
theorem readLine_lookAhead_spelled :
    ∃ i j, Operation.readLine.runAfter 5 spelledInput =
        .ok "a\\nb".toList i ∧
      Operation.readLine.run spelledInput = .ok "a\nb".toList j ∧ i.pending = j.pending ∧
      ¬ SameReading (Operation.readLine.runAfter 5 spelledInput)
        (Operation.readLine.run spelledInput) := by
  obtain ⟨i, hi, hback, hrest, -, hclosed⟩ := exists_lookAhead 5 (i := spelledInput) rfl rfl
  obtain ⟨i', hi', hpi, -⟩ := exists_readLine hclosed
  obtain ⟨j', hj', hpj, -⟩ := exists_readLine (i := spelledInput) rfl
  have hpushed : currentLine i.pushback i.rest = ("a\\nb".toList, ['c']) := by
    rw [hback, hrest]
    rfl
  have hline : '\n' ∉ "a\\nb".toList := by decide
  have hfresh : currentLine spelledInput.pushback spelledInput.rest = ("a\nb".toList, ['c']) :=
    joinLines_line hline (by decide) ['c']
  rw [hpushed] at hi' hpi
  rw [hfresh] at hj' hpj
  have hafter : Operation.readLine.runAfter 5 spelledInput = .ok "a\\nb".toList i' := by
    rw [Operation.runAfter, bind_of_ok hi]
    exact hi'
  have hfirst : Operation.readLine.run spelledInput = .ok "a\nb".toList j' := hj'
  refine ⟨i', j', hafter, hfirst, by rw [hpi, hpj], ?_⟩
  rw [hafter, hfirst, sameReading_ok_iff]
  simp

end Stencil.Input
