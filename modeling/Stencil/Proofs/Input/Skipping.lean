import Stencil.Proofs.Input.PushedLine

/-!
# What skipping takes and what it leaves

`Stencil.Proofs.Input.Trivia` says which character comes after skipping.  This file says all of it:
what is taken (`Leading`), what is left (`Halts`), and which faults there are (`Broken`).  A comment
to the end of its line can be the last thing in a text, without a newline; then nothing is left.

Every text is trivia followed by one of three things, a text that skipping stops at, a comment that
the text ends in, or a comment that cannot be read (`exists_leading`).  This is a fact of the
grammar alone.  Skipping passes over the trivia (`Ready.skipTrivia_past`), and for each of the three
there is a lemma on what it comes to.  As these outcomes exclude each other, the three lemmas also
tell from the outcome what the text was, and the main statement, `skipTrivia_iff`, goes both ways.
-/

namespace Stencil.Input

/-! ## The grammar -/

/-- A comment that the text ends in. -/
inductive LastComment : Text → Prop where
  | hash {t : Text} (ht : LastLine t) : LastComment ('#' :: t)
  | slashes {t : Text} (ht : LastLine t) : LastComment ('/' :: '/' :: t)

/-- What can be skipped in front of a text: trivia, and behind them, if the text is empty, a comment
that has no end. -/
inductive Leading (skipped : Text) : Text → Text → Prop where
  | trivia {u t : Text} (hu : Trivia skipped u) : Leading skipped u t
  | last {u v : Text} (hu : Trivia skipped u) (hv : LastComment v) : Leading skipped (u ++ v) []

/-- What comments begin with.  The third character of `<!-` settles that it is a comment, although
there is a fourth one to come. -/
def openings : List Text := [['#'], ['/', '/'], ['/', '*'], ['<', '!', '-']]

/-- A text that is empty or begins with neither a character to be skipped nor a comment. -/
structure Halts (skipped t : Text) : Prop where
  kept : ∀ c ∈ t.head?, c ∉ skipped
  starts_none : ∀ opening ∈ openings, ¬ opening <+: t

lemma halts_iff {skipped t : Text} :
    Halts skipped t ↔ t.head?.all (!skipped.contains ·) = true ∧
      openings.all (!List.isPrefixOf · t) = true := by
  rw [Option.all_eq_true, List.all_eq_true]
  simp only [Bool.not_eq_true', Bool.eq_false_iff, ne_eq, List.contains_iff_mem,
    List.isPrefixOf_iff_prefix]
  exact ⟨fun h => ⟨h.kept, h.starts_none⟩, fun ⟨hkept, hstarts⟩ => ⟨hkept, hstarts⟩⟩

instance decidableHalts (skipped t : Text) : Decidable (Halts skipped t) :=
  decidable_of_iff _ halts_iff.symm

/-- A text in which a terminator is missing: it stands nowhere, or only with its first character
escaped. -/
def Unended (ending t : Text) : Prop := ∀ u v, Precedes ending u → t ≠ u ++ (ending ++ v)

/-- A text that begins with a comment that cannot be read, and the fault that it gives. -/
inductive Broken : InputFault → Text → Prop where
  | dash {t : Text} (ht : t.head? ≠ some '-') :
    Broken (.badComment (currentLine ('<' :: '!' :: '-' :: t.take 1) (t.drop 1)).1)
      ('<' :: '!' :: '-' :: t)
  | block {t : Text} (ht : Unended ['*', '/'] t) :
    Broken (.missingTerminator ['*', '/'] (unescape t)) ('/' :: '*' :: t)
  | markup {t : Text} (ht : Unended ['-', '-', '>'] t) :
    Broken (.missingTerminator ['-', '-', '>'] (unescape t)) ('<' :: '!' :: '-' :: '-' :: t)

/-! ## Every text begins with trivia -/

section Grammar

variable {skipped t u : Text} {first : Char} {others : Text}

/-- A terminator is missing where the text is not cut at it. -/
lemma unended_iff (hf : first ≠ '\\') :
    Unended (first :: others) t ↔ cutUnescaped? (first :: others) t = none := by
  constructor
  · intro h
    cases hcut : cutUnescaped? (first :: others) t with
    | none => rfl
    | some cut =>
      obtain ⟨hu, ht⟩ := of_cutUnescaped? hcut
      exact absurd ht (h _ _ hu)
  · rintro h u v hu rfl
    cases (cutUnescaped?_append hf hu v).symm.trans h

lemma exists_of_not_unended {ending : Text} (h : ¬ Unended ending t) :
    ∃ u v, Precedes ending u ∧ t = u ++ (ending ++ v) := by
  simpa [Unended] using h

/-- A line comment is complete, or the text ends in it. -/
lemma exists_lineComment {opening : Text} (hlast : ∀ {t}, LastLine t → LastComment (opening ++ t))
    (hline : ∀ {t}, CommentLine t → Comment (opening ++ t)) (t : Text) :
    LastComment (opening ++ t) ∨ ∃ u v, Comment u ∧ opening ++ t = u ++ v := by
  rcases lastLine_or_exists_commentLine t with ht | ⟨u, v, hu, rfl⟩
  · exact .inl (hlast ht)
  · exact .inr ⟨opening ++ u, v, hline hu, (List.append_assoc ..).symm⟩

/-- A comment with a terminator is complete, or the terminator is missing. -/
lemma exists_closedComment (opening : Text) {ending : Text} {fault : InputFault}
    (hbroken : Unended ending t → Broken fault (opening ++ t))
    (hcomment : ∀ {u}, Precedes ending u → Comment (opening ++ (u ++ ending))) :
    (∃ fault, Broken fault (opening ++ t)) ∨ ∃ u v, Comment u ∧ opening ++ t = u ++ v := by
  by_cases ht : Unended ending t
  · exact .inl ⟨fault, hbroken ht⟩
  · obtain ⟨u, v, hu, rfl⟩ := exists_of_not_unended ht
    exact .inr ⟨opening ++ (u ++ ending), v, hcomment hu, by simp⟩

/-- What begins like a comment is one, or the text ends in it, or it cannot be read. -/
lemma exists_comment (h : ∃ opening ∈ openings, opening <+: t) :
    LastComment t ∨ (∃ fault, Broken fault t) ∨ ∃ u v, Comment u ∧ t = u ++ v := by
  obtain ⟨opening, hmem, r, rfl⟩ := h
  simp only [openings, List.mem_cons, List.not_mem_nil, or_false] at hmem
  rcases hmem with rfl | rfl | rfl | rfl
  · exact (exists_lineComment .hash .hash r).imp_right .inr
  · exact (exists_lineComment .slashes .slashes r).imp_right .inr
  · exact .inr (exists_closedComment ['/', '*'] .block .block)
  · by_cases hdash : r.head? = some '-'
    · obtain ⟨s, rfl⟩ := List.head?_eq_some_iff.1 hdash
      exact .inr (exists_closedComment ['<', '!', '-', '-'] .markup .markup)
    · exact .inr (.inl ⟨_, .dash hdash⟩)

lemma Comment.length_pos (hu : Comment u) : 0 < u.length := by
  cases hu <;> simp

/-- A text is trivia and what skipping comes upon behind them: where it halts, a comment that the
text ends in, or a comment that cannot be read. -/
lemma exists_leading (skipped s : Text) :
    ∃ u t, Trivia skipped u ∧ s = u ++ t ∧
      (Halts skipped t ∨ LastComment t ∨ ∃ fault, Broken fault t) := by
  -- By induction on the length: a comment in front is taken off whole, which no structural
  -- recursion does.
  induction hn : s.length using Nat.strong_induction_on generalizing s with
  | _ n ih =>
    by_cases hblank : ∃ c r, s = c :: r ∧ c ∈ skipped
    · obtain ⟨c, r, rfl, hc⟩ := hblank
      obtain ⟨u, t, hu, rfl, ht⟩ := ih r.length (by simp [← hn]) r rfl
      exact ⟨c :: u, t, .blank hc hu, rfl, ht⟩
    by_cases hstart : ∃ opening ∈ openings, opening <+: s
    · rcases exists_comment hstart with hlast | hbroken | ⟨v, r, hv, rfl⟩
      · exact ⟨[], s, .nil, rfl, .inr (.inl hlast)⟩
      · exact ⟨[], s, .nil, rfl, .inr (.inr hbroken)⟩
      · have hlt : r.length < n := by
          have := hv.length_pos
          rw [← hn, List.length_append]
          omega
        obtain ⟨u, t, hu, rfl, ht⟩ := ih r.length hlt r rfl
        exact ⟨v ++ u, t, .comment hv hu, (List.append_assoc ..).symm, ht⟩
    · refine ⟨[], s, .nil, rfl, .inl ⟨fun c hc hskip => ?_, by simpa using hstart⟩⟩
      obtain ⟨r, rfl⟩ := List.head?_eq_some_iff.1 hc
      exact hblank ⟨c, r, rfl, hskip⟩

lemma halts_nil : Halts skipped [] := ⟨by simp, by simp [openings]⟩

/-- Skipping either leaves a text that it halts at, or meets a comment that cannot be read. -/
lemma exists_outcome (skipped s : Text) :
    (∃ u t, Leading skipped u t ∧ Halts skipped t ∧ s = u ++ t) ∨
      ∃ fault u t, Trivia skipped u ∧ Broken fault t ∧ s = u ++ t := by
  obtain ⟨u, t, hu, rfl, ht | ht | ⟨fault, ht⟩⟩ := exists_leading skipped s
  · exact .inl ⟨u, t, .trivia hu, ht, rfl⟩
  · exact .inl ⟨u ++ t, [], .last hu ht, halts_nil, (List.append_nil _).symm⟩
  · exact .inr ⟨fault, u, t, hu, ht, rfl⟩

end Grammar

/-! ## What skipping comes to -/

section Skipping

variable {i : Input} {skipped t u : Text} {c : Char}

lemma Ready.skipTrivia_nil (hi : i.Ready) (hp : i.pending = []) :
    i.skipTrivia skipped = .ok () (i.drop 1) := by
  refine skipTrivia_of_none ?_
  rw [hi.next_eq, hp, List.head?_nil]

/-- What begins no comment is left. -/
lemma Ready.skipComment_none (hi : i.Ready) (h : ∀ opening ∈ openings, ¬ opening <+: c :: t) :
    ∃ k, (i.leaving t).skipComment c = .ok false k ∧ k.Ready ∧ k.pending = t ∧
      ∀ s, k.leaving s = i.leaving s := by
  simp only [openings, List.forall_mem_cons, List.cons_prefix_cons, not_and] at h
  obtain ⟨hhash, hslash, hblock, hmarkup, -⟩ := h
  by_cases hc : c = '#'
  · exact absurd List.nil_prefix (hhash hc.symm)
  by_cases hc : c = '/'
  · have hhead : ∀ {d}, t.head? = some d → [d] <+: t := by
      intro d hd
      obtain ⟨s, rfl⟩ := List.head?_eq_some_iff.1 hd
      exact List.prefix_append [d] s
    have hline : t.head? ≠ some '/' := fun hd => hslash hc.symm (hhead hd)
    have hstar : t.head? ≠ some '*' := fun hd => hblock hc.symm (hhead hd)
    subst hc
    have hleft := hi.isLeft_peeked t
    exact ⟨_, hi.skipComment_slash hline hstar, hleft.ready, hleft.pending_eq, hleft.leaving_eq⟩
  by_cases hc : c = '<'
  · obtain ⟨k, hk, hready, hpending, -, hleave⟩ :=
      (hi.leaving t).readExactly_of_not_startsWith (hmarkup hc.symm)
    subst hc
    exact ⟨k, by simp [skipComment, skipMarkup, hk], hready, hpending, fun s => by simp [hleave]⟩
  · exact ⟨i.leaving t, by simp [skipComment, *], hi.leaving t, rfl, fun s => rfl⟩

/-- Skipping leaves a text that it halts at. -/
lemma Ready.skipTrivia_halts (hi : i.Ready) (hback : i.pushback.length ≤ 1)
    (ht : Halts skipped i.pending) :
    ∃ j, i.skipTrivia skipped = .ok () j ∧ j.Ready ∧ j.pending = i.pending ∧
      ∀ s, j.leaving s = i.leaving s := by
  cases hp : i.pending with
  | nil => exact ⟨i.drop 1, hi.skipTrivia_nil hp, hi.drop 1, by simp [hp], fun s => by simp⟩
  | cons c t =>
    rw [hp] at ht
    obtain ⟨k, hk, hready, hpending, hleave⟩ := hi.skipComment_none ht.starts_none
    have hkept : isSkipped skipped c = false := by simp [isSkipped, ht.kept c (by simp)]
    refine ⟨k.unread c, ?_, hready.unread c, by simp [hpending], fun s => by simp [hleave]⟩
    rw [hi.skipTrivia_cons hback hp, hk]
    simp [hkept]

/-- Skipping takes a comment that the text ends in. -/
lemma Ready.skipTrivia_lastComment (hi : i.Ready) (hback : i.pushback.length ≤ 1)
    (ht : LastComment i.pending) : i.skipTrivia skipped = .ok () (i.leaving []) := by
  have hnil : (i.leaving []).skipTrivia skipped = .ok () (i.leaving []) :=
    (hi.leaving []).skipTrivia_nil rfl
  generalize hp : i.pending = t at ht
  cases ht with
  | hash ht =>
    rw [hi.skipTrivia_cons hback hp, hi.skipComment_hash, joinLines_of_lastLine ht]
    exact hnil
  | slashes ht =>
    rw [hi.skipTrivia_cons hback hp, hi.skipComment_slashes, joinLines_of_lastLine ht]
    exact hnil

/-- Markup without its second dash is pushed back, and the line that it stands on is named. -/
lemma Ready.skipComment_dash (hi : i.Ready) (ht : t.head? ≠ some '-') :
    ∃ j, (i.leaving ('!' :: '-' :: t)).skipComment '<' =
      .error (.badComment (currentLine ('<' :: '!' :: '-' :: t.take 1) (t.drop 1)).1) j := by
  have hopening : readExactly ['!', '-'] (i.leaving ('!' :: '-' :: t)) =
      .ok true (i.leaving t) := by simp [readExactly, hi.next_leaving]
  -- All that has been read of the markup is in front again when the line is read for the message.
  have hback : ((((i.leaving (t.drop 1)).unreadOption t.head?).unread '-').unread '!').unread '<' =
      { i.leaving (t.drop 1) with pushback := '<' :: '!' :: '-' :: t.take 1 } := by
    cases t <;> rfl
  obtain ⟨j, hline, -⟩ := exists_readLine
    (i := { i.leaving (t.drop 1) with pushback := '<' :: '!' :: '-' :: t.take 1 }) hi.notClosed
  refine ⟨j, ?_⟩
  rw [skipComment, if_neg (by decide), if_neg (by decide), if_pos rfl, skipMarkup, hopening]
  simp only [hi.next_leaving, if_neg ht, hback, hline]
  rfl

/-- Skipping fails at a comment that cannot be read. -/
lemma Ready.skipTrivia_broken (hi : i.Ready) (hback : i.pushback.length ≤ 1) {fault : InputFault}
    (ht : Broken fault i.pending) : ∃ j, i.skipTrivia skipped = .error fault j := by
  generalize hp : i.pending = t at ht
  cases ht with
  | dash ht =>
    obtain ⟨j, hj⟩ := hi.skipComment_dash ht
    rw [hi.skipTrivia_cons hback hp, hj]
    exact ⟨j, rfl⟩
  | @block t ht =>
    have hcut := (unended_iff (by decide)).1 ht
    rw [hi.skipTrivia_cons hback hp, hi.skipComment_block, skippedThrough, hcut]
    exact ⟨_, rfl⟩
  | @markup t ht =>
    have hcut := (unended_iff (by decide)).1 ht
    rw [hi.skipTrivia_cons hback hp, hi.skipComment_markup, skippedThrough, hcut]
    exact ⟨_, rfl⟩

/-- Skipping passes over trivia. -/
lemma Ready.skipTrivia_past (hi : i.Ready) (hback : i.pushback.length ≤ 1)
    (hs : ∀ c ∈ skipped, startsComment c = false) (hu : Trivia skipped u)
    (hp : i.pending = u ++ t) :
    ∃ k, IsLeft i t k ∧ i.skipTrivia skipped = k.skipTrivia skipped := by
  -- By induction on the trivia; afterwards the input may have been read further, and differs from
  -- the first in nothing else.
  induction hu generalizing i with
  | nil => exact ⟨i, ⟨hi, hback, hp, fun _ => rfl⟩, rfl⟩
  | @blank d u hd _ ih =>
    rw [hi.skipTrivia_blank hback (hs d hd) hd hp]
    obtain ⟨k, hk, heq⟩ := ih (hi.leaving _) (Nat.zero_le _) rfl
    exact ⟨k, ⟨hk.ready, hk.length_pushback_le, hk.pending_eq, hk.leaving_eq⟩, heq⟩
  | @comment v u hv _ ih =>
    rw [List.append_assoc] at hp
    rw [hi.skipTrivia_comment hback hv hp]
    obtain ⟨k, hk, heq⟩ := ih (hi.leaving _) (Nat.zero_le _) rfl
    exact ⟨k, ⟨hk.ready, hk.length_pushback_le, hk.pending_eq, hk.leaving_eq⟩, heq⟩

lemma Ready.skipTrivia_of_leading (hi : i.Ready) (hback : i.pushback.length ≤ 1)
    (hs : ∀ c ∈ skipped, startsComment c = false) (hu : Leading skipped u t) (ht : Halts skipped t)
    (hp : i.pending = u ++ t) :
    ∃ j, i.skipTrivia skipped = .ok () j ∧ j.Ready ∧ j.pending = t ∧
      ∀ s, j.leaving s = i.leaving s := by
  -- A comment that the text ends in is not trivia, for no terminator follows it.
  cases hu with
  | trivia hu =>
    obtain ⟨k, hk, hskip⟩ := hi.skipTrivia_past hback hs hu hp
    rw [← hk.pending_eq] at ht
    obtain ⟨j, hj, hready, hpending, hleave⟩ :=
      hk.ready.skipTrivia_halts hk.length_pushback_le ht
    exact ⟨j, hskip.trans hj, hready, hpending.trans hk.pending_eq,
      fun s => (hleave s).trans (hk.leaving_eq s)⟩
  | last hu hv =>
    rw [List.append_nil] at hp
    obtain ⟨k, hk, hskip⟩ := hi.skipTrivia_past hback hs hu hp
    rw [← hk.pending_eq] at hv
    exact ⟨_, hskip.trans (hk.ready.skipTrivia_lastComment hk.length_pushback_le hv),
      hk.ready.leaving [], rfl, hk.leaving_eq⟩

lemma Ready.skipTrivia_of_broken (hi : i.Ready) (hback : i.pushback.length ≤ 1)
    (hs : ∀ c ∈ skipped, startsComment c = false) (hu : Trivia skipped u) {fault : InputFault}
    (ht : Broken fault t) (hp : i.pending = u ++ t) :
    ∃ j, i.skipTrivia skipped = .error fault j := by
  obtain ⟨k, hk, hskip⟩ := hi.skipTrivia_past hback hs hu hp
  rw [← hk.pending_eq] at ht
  rw [hskip]
  exact hk.ready.skipTrivia_broken hk.length_pushback_le ht

/-- **Skipping takes the whitespace and the comments, and nothing else.**  It comes to an end where
a text begins with trivia and halts behind them, and leaves what it halts at.  It fails where it
meets, behind trivia, a comment that cannot be read.  These are both of them conditions on the text
alone, and every text fulfils one. -/
theorem skipTrivia_iff (hp : i.pushback = []) (hc : i.isClosed = false)
    (hs : ∀ c ∈ skipped, startsComment c = false) :
    (∀ t, (∃ j, i.skipTrivia skipped = .ok () j ∧ j.pending = t) ↔
        ∃ u, Leading skipped u t ∧ Halts skipped t ∧ i.rest = u ++ t) ∧
      (∀ fault, (∃ j, i.skipTrivia skipped = .error fault j) ↔
        ∃ u t, Trivia skipped u ∧ Broken fault t ∧ i.rest = u ++ t) ∧
      ∀ j, i.skipTrivia skipped = .ok () j → j.Ready ∧ ∀ t, j.leaving t = i.leaving t := by
  have hi : (i.leaving i.rest).Ready := ⟨rfl, hc⟩
  have hrun : (i.leaving i.rest).skipTrivia skipped = i.skipTrivia skipped :=
    skipTrivia_congr skipped (next_leaving_rest hp)
  have hok : ∀ {u t}, Leading skipped u t → Halts skipped t → i.rest = u ++ t →
      ∃ j, i.skipTrivia skipped = .ok () j ∧ j.Ready ∧ j.pending = t ∧
        ∀ s, j.leaving s = i.leaving s := by
    intro u t hu ht hsplit
    rw [← hrun]
    exact hi.skipTrivia_of_leading (Nat.zero_le _) hs hu ht hsplit
  have herror : ∀ {fault u t}, Trivia skipped u → Broken fault t → i.rest = u ++ t →
      ∃ j, i.skipTrivia skipped = .error fault j := by
    intro fault u t hu ht hsplit
    rw [← hrun]
    exact hi.skipTrivia_of_broken (Nat.zero_le _) hs hu ht hsplit
  -- The outcome determines the text, for a text of the other kind would have another outcome.
  have hkinds := exists_outcome skipped i.rest
  refine ⟨fun t => ⟨?_, ?_⟩, fun fault => ⟨?_, ?_⟩, ?_⟩
  · rintro ⟨j, hj, rfl⟩
    rcases hkinds with ⟨u, t, hu, ht, hsplit⟩ | ⟨fault, u, t, hu, ht, hsplit⟩
    · obtain ⟨k, hk, -, rfl, -⟩ := hok hu ht hsplit
      cases hj.symm.trans hk
      exact ⟨u, hu, ht, hsplit⟩
    · obtain ⟨k, hk⟩ := herror hu ht hsplit
      cases hj.symm.trans hk
  · rintro ⟨u, hu, ht, hsplit⟩
    obtain ⟨j, hj, -, hpending, -⟩ := hok hu ht hsplit
    exact ⟨j, hj, hpending⟩
  · rintro ⟨j, hj⟩
    rcases hkinds with ⟨u, t, hu, ht, hsplit⟩ | ⟨fault, u, t, hu, ht, hsplit⟩
    · obtain ⟨k, hk, -⟩ := hok hu ht hsplit
      cases hj.symm.trans hk
    · obtain ⟨k, hk⟩ := herror hu ht hsplit
      cases hj.symm.trans hk
      exact ⟨u, t, hu, ht, hsplit⟩
  · rintro ⟨u, t, hu, ht, hsplit⟩
    exact herror hu ht hsplit
  · intro j hj
    rcases hkinds with ⟨u, t, hu, ht, hsplit⟩ | ⟨fault, u, t, hu, ht, hsplit⟩
    · obtain ⟨k, hk, hready, -, hleave⟩ := hok hu ht hsplit
      cases hj.symm.trans hk
      exact ⟨hready, hleave⟩
    · obtain ⟨k, hk⟩ := herror hu ht hsplit
      cases hj.symm.trans hk

end Skipping

/-- An input with a comment that a backslash joins the next line to, and `<` behind it that begins
no comment. -/
def joinedInput : Input := ofText " # a\\\r\n/*\n<!x".toList

/-- An input that has a comment, and then markup that breaks off. -/
def brokenInput : Input := ofText "/**/<!-".toList

/-- The line comment goes on behind its joined line, and what is left starts no comment.  Markup
that breaks off behind a comment is a fault. -/
theorem skipTrivia_iff_joined :
    joinedInput.pushback = [] ∧ joinedInput.isClosed = false ∧
      brokenInput.pushback = [] ∧ brokenInput.isClosed = false ∧
      (∀ c ∈ [' '], startsComment c = false) ∧
      (∃ j, joinedInput.skipTrivia [' '] = .ok () j ∧ j.pending = "<!x".toList) ∧
      ∃ j, brokenInput.skipTrivia [' '] = .error (.badComment "<!-".toList) j := by
  have hs : ∀ c ∈ [' '], startsComment c = false := by simp [startsComment]
  have hline : CommentLine " a\\\r\n/*\n".toList :=
    @CommentLine.joined " a\\\r".toList _ (by decide) (by decide)
      (@CommentLine.last "/*".toList (by decide) (by decide))
  have hjoined : Trivia [' '] " # a\\\r\n/*\n".toList :=
    .blank (by decide) (.comment (.hash hline) .nil)
  have hhalts : Halts [' '] "<!x".toList := by decide
  have hblock : Trivia [' '] "/**/".toList :=
    .comment (.block (t := []) .nil) .nil
  have hfound : (currentLine "<!-".toList []).1 = "<!-".toList := by
    rw [currentLine_of_plain (by simp [endsLine]), joinLines_last (by decide)]
    rfl
  have hbroken : Broken (.badComment "<!-".toList) "<!-".toList := by
    have hdash : Broken (.badComment (currentLine "<!-".toList []).1) "<!-".toList :=
      .dash (t := []) (by simp)
    rwa [hfound] at hdash
  exact ⟨rfl, rfl, rfl, rfl, hs,
    ((skipTrivia_iff (i := joinedInput) rfl rfl hs).1 _).2 ⟨_, .trivia hjoined, hhalts, rfl⟩,
    ((skipTrivia_iff (i := brokenInput) rfl rfl hs).2.1 _).2 ⟨_, _, hblock, hbroken, rfl⟩⟩

end Stencil.Input
