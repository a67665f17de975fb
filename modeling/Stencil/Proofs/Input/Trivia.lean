import Stencil.Proofs.Input.Terminator
import Stencil.Proofs.Text.Alphanumeric

/-!
# What may stand between the parts of a construct

Whitespace and comments, as a grammar and as they are skipped.  `Trivia skipped` is the language of
the texts made of the characters to be skipped and of complete comments, of which there are four
forms (`Comment`); a comment to the end of the line takes in the lines that backslashes join to it
(`CommentLine`), unless the text ends in it (`LastLine`).

Skipping is compared with the grammar for one question only, which character comes after it.  For an
`Ordinary` character, one that is not skipped and that no comment starts with, the two agree
(`Ready.next_skipTrivia_iff`).  A comment that the text breaks off in is no matter, for no character
comes after it; nor is a slash or `<` that starts no comment, which skipping leaves to be read.
-/

namespace Stencil.Input

/-! ## The grammar -/

/-- The rest of a comment that ends with its line.  A backslash at the end of the line, before the
carriage return if there is one, joins the next line to it. -/
inductive CommentLine : Text → Prop where
  | last {line : Text} (hn : '\n' ∉ line) (hb : (dropReturn line).getLast? ≠ some '\\') :
    CommentLine (line ++ ['\n'])
  | joined {line t : Text} (hn : '\n' ∉ line) (hb : (dropReturn line).getLast? = some '\\')
    (ht : CommentLine t) : CommentLine (line ++ '\n' :: t)

/-- The rest of a comment that ends with its line, where the text ends in this line.  A newline may
stand in it only behind a backslash that joins the lines. -/
inductive LastLine : Text → Prop where
  | last {line : Text} (hn : '\n' ∉ line) : LastLine line
  | joined {line t : Text} (hn : '\n' ∉ line) (hb : (dropReturn line).getLast? = some '\\')
    (ht : LastLine t) : LastLine (line ++ '\n' :: t)

/-- A complete comment. -/
inductive Comment : Text → Prop where
  | hash {t : Text} (ht : CommentLine t) : Comment ('#' :: t)
  | slashes {t : Text} (ht : CommentLine t) : Comment ('/' :: '/' :: t)
  | block {t : Text} (ht : Precedes ['*', '/'] t) : Comment ('/' :: '*' :: (t ++ ['*', '/']))
  | markup {t : Text} (ht : Precedes ['-', '-', '>'] t) :
    Comment ('<' :: '!' :: '-' :: '-' :: (t ++ ['-', '-', '>']))

/-- Characters to be skipped and complete comments. -/
inductive Trivia (skipped : Text) : Text → Prop where
  | nil : Trivia skipped []
  | blank {c : Char} {t : Text} (hc : c ∈ skipped) (ht : Trivia skipped t) : Trivia skipped (c :: t)
  | comment {u t : Text} (hu : Comment u) (ht : Trivia skipped t) : Trivia skipped (u ++ t)

/-- A character that skipping comes to a stop at: it is not skipped and starts no comment. -/
structure Ordinary (skipped : Text) (c : Char) : Prop where
  starts : startsComment c = false
  kept : c ∉ skipped

lemma Ordinary.of_check {skipped : Text} {c : Char}
    (h : (!startsComment c && !skipped.contains c) = true) : Ordinary skipped c := by
  obtain ⟨hstarts, hkept⟩ := Bool.and_eq_true_iff.1 h
  exact ⟨by simpa using hstarts, by simpa using hkept⟩

lemma Ordinary.of_isAlphanumeric {c : Char} (hc : Text.isAlphanumeric c = true) :
    Ordinary margins c := by
  have hall : ('#' :: '/' :: '<' :: margins).all (fun d => !Text.isAlphanumeric d) = true := rfl
  have hne : ∀ d ∈ '#' :: '/' :: '<' :: margins, c ≠ d := fun d hd =>
    Text.ne_of_isAlphanumeric hc (by simpa using List.all_eq_true.1 hall d hd)
  refine ⟨?_, fun h => hne c (by simp [h]) rfl⟩
  simp [startsComment, hne]

/-! ## Lines -/

/-- Expanding newlines keeps a backslash at the end of a text; `c` is what the text stands
behind. -/
lemma getLast?_expandNewlines_iff (t : Text) (c : Char) :
    (expandNewlines t).getLast?.getD c = '\\' ↔ t.getLast?.getD c = '\\' := by
  fun_induction expandNewlines t generalizing c with
  | case1 t ih =>
    rw [List.getLast?_cons, List.getLast?_cons, List.getLast?_cons, Option.getD_some,
      Option.getD_some, Option.getD_some, ih '\n']
    cases t.getLast? with
    | none => simp
    | some d => rfl
  | case2 d t h ih =>
    rw [List.getLast?_cons, List.getLast?_cons, Option.getD_some, Option.getD_some]
    exact ih d
  | case3 => rfl

/-- A line that nothing has been pushed back of is joined to the next one by its last backslash. -/
lemma getLast?_lineText_iff (t : Text) :
    (lineText [] t).getLast? = some '\\' ↔ (dropReturn (splitLine t).1).getLast? = some '\\' := by
  have hgetD : ∀ o : Option Char, o.getD '\n' = '\\' ↔ o = some '\\' := by
    intro o
    cases o <;> simp
  rw [← hgetD, ← hgetD]
  exact getLast?_expandNewlines_iff _ '\n'

section Lines

variable {line t : Text}

lemma splitLine_of_notMem (h : '\n' ∉ line) (t : Text) :
    splitLine (line ++ t) = (line ++ (splitLine t).1, (splitLine t).2) := by
  have hline : ∀ c ∈ line, (c != '\n') = true := fun c hc =>
    bne_iff_ne.2 (ne_of_mem_of_not_mem hc h)
  rw [splitLine, List.takeWhile_append_of_pos hline, List.dropWhile_append_of_pos hline]
  rfl

lemma splitLine_append (hn : '\n' ∉ line) (t : Text) :
    splitLine (line ++ '\n' :: t) = (line, t) := by
  have hnewline : splitLine ('\n' :: t) = ([], t) := rfl
  rw [splitLine_of_notMem hn, hnewline, List.append_nil]

/-- A line that ends in a newline, and is not joined to the next. -/
lemma joinLines_line (hn : '\n' ∉ line) (hb : (dropReturn line).getLast? ≠ some '\\') (t : Text) :
    joinLines [] (line ++ '\n' :: t) = (expandNewlines (dropReturn line), t) := by
  have hb' : ¬ (lineText [] (line ++ '\n' :: t)).getLast? = some '\\' := by
    rwa [getLast?_lineText_iff, splitLine_append hn]
  rw [joinLines, dif_neg hb', lineText, splitLine_append hn, List.nil_append]

/-- A line that a backslash joins to the next. -/
lemma joinLines_joined (hn : '\n' ∉ line) (hb : (dropReturn line).getLast? = some '\\') (t : Text) :
    joinLines [] (line ++ '\n' :: t) =
      ((expandNewlines (dropReturn line)).dropLast ++ (joinLines [] t).1, (joinLines [] t).2) := by
  have hb' : (lineText [] (line ++ '\n' :: t)).getLast? = some '\\' := by
    rwa [getLast?_lineText_iff, splitLine_append hn]
  rw [joinLines, dif_pos hb', lineText, splitLine_append hn, List.nil_append]

@[simp] lemma joinLines_nil : joinLines [] [] = ([], []) := by
  rw [joinLines]
  rfl

/-- The last line of a text. -/
lemma joinLines_last (hn : '\n' ∉ line) :
    joinLines [] line =
      if (dropReturn line).getLast? = some '\\' then
        ((expandNewlines (dropReturn line)).dropLast, [])
      else (expandNewlines (dropReturn line), []) := by
  have hsplit : splitLine line = (line, []) := by
    have hnil : splitLine [] = ([], []) := rfl
    simpa [hnil] using splitLine_of_notMem hn []
  have hlast := getLast?_lineText_iff line
  rw [hsplit] at hlast
  rw [joinLines]
  by_cases hb : (dropReturn line).getLast? = some '\\'
  · rw [dif_pos (hlast.2 hb), if_pos hb]
    simp [lineText, hsplit]
  · rw [dif_neg (mt hlast.1 hb), if_neg hb]
    simp [lineText, hsplit]

/-- What a comment line leaves of the text it stands in front of. -/
lemma joinLines_append (ht : CommentLine t) (rest : Text) :
    (joinLines [] (t ++ rest)).2 = rest := by
  induction ht with
  | last hn hb => rw [List.append_assoc, List.singleton_append, joinLines_line hn hb]
  | joined hn hb _ ih => rw [List.append_assoc, List.cons_append, joinLines_joined hn hb, ih]

lemma joinLines_of_lastLine (ht : LastLine t) : (joinLines [] t).2 = [] := by
  induction ht with
  | @last line hn =>
    rw [joinLines_last hn]
    split <;> rfl
  | joined hn hb _ ih => rw [joinLines_joined hn hb, ih]

/-- A line comes to an end, or the text ends in it. -/
lemma lastLine_or_exists_commentLine (t : Text) :
    LastLine t ∨ ∃ u v, CommentLine u ∧ t = u ++ v := by
  by_cases hn : '\n' ∈ t
  · obtain ⟨line, v, rfl, hline⟩ := List.eq_append_cons_of_mem hn
    by_cases hb : (dropReturn line).getLast? = some '\\'
    · rcases lastLine_or_exists_commentLine v with hv | ⟨u, w, hu, rfl⟩
      · exact .inl (.joined hline hb hv)
      · exact .inr ⟨line ++ '\n' :: u, w, .joined hline hb hu, by simp⟩
    · exact .inr ⟨line ++ ['\n'], v, .last hline hb, by simp⟩
  · exact .inl (.last hn)
termination_by t.length

/-- The lines that are read together run to the end of the text or make up a comment line. -/
lemma of_joinLines (t : Text) :
    (joinLines [] t).2 = [] ∨ ∃ u, CommentLine u ∧ t = u ++ (joinLines [] t).2 := by
  rcases lastLine_or_exists_commentLine t with ht | ⟨u, v, hu, rfl⟩
  · exact .inl (joinLines_of_lastLine ht)
  · exact .inr ⟨u, hu, by rw [joinLines_append hu]⟩

end Lines

/-! ## One comment -/

variable {i j : Input} {c : Char}

lemma Ready.readLine_leaving (hi : i.Ready) (t : Text) :
    (i.leaving t).readLine = .ok (joinLines [] t).1 (i.leaving (joinLines [] t).2) := by
  simp [readLine, pushedLine, Input.leaving, hi.notClosed]

lemma Ready.skipComment_hash (hi : i.Ready) (t : Text) :
    (i.leaving t).skipComment '#' = .ok true (i.leaving (joinLines [] t).2) := by
  rw [skipComment, if_pos rfl, hi.readLine_leaving]

lemma Ready.skipComment_slashes (hi : i.Ready) (t : Text) :
    (i.leaving ('/' :: t)).skipComment '/' = .ok true (i.leaving (joinLines [] t).2) := by
  simp [skipComment, hi.next_leaving, hi.readLine_leaving]

/-- The outcome of a comment up to a terminator, its opening having been read. -/
def skippedThrough (ending : Text) (i : Input) (t : Text) : EStateM.Result InputFault Input Bool :=
  match cutUnescaped? ending t with
  | some (_, after) => .ok true (i.leaving after)
  | none => .error (.missingTerminator ending (unescape t)) (i.leaving [])

lemma skippedThrough_append {first : Char} {others u : Text} (hf : first ≠ '\\')
    (hu : Precedes (first :: others) u) (i : Input) (t : Text) :
    skippedThrough (first :: others) i (u ++ (first :: others ++ t)) = .ok true (i.leaving t) := by
  rw [skippedThrough, cutUnescaped?_append hf hu]

lemma of_skippedThrough {first : Char} {others t : Text}
    (h : skippedThrough (first :: others) i t = .ok true j) :
    ∃ u after, Precedes (first :: others) u ∧ t = u ++ (first :: others ++ after) ∧
      j = i.leaving after := by
  rw [skippedThrough] at h
  split at h
  · rename_i u after hcut
    obtain ⟨hu, ht⟩ := of_cutUnescaped? hcut
    cases h
    exact ⟨u, after, hu, ht, rfl⟩
  · cases h

lemma Ready.skipComment_block (hi : i.Ready) (t : Text) :
    (i.leaving ('*' :: t)).skipComment '/' = skippedThrough ['*', '/'] i t := by
  have hthrough : readThrough '*' ['/'] (plainReader '*') [] (i.leaving t) = _ :=
    (hi.leaving t).readThrough_eq (by decide) (Nat.zero_le _) []
  cases hcut : cutUnescaped? ['*', '/'] t with
  | none => simp [skipComment, hi.next_leaving, hthrough, skippedThrough, hcut]
  | some cut => simp [skipComment, hi.next_leaving, hthrough, skippedThrough, hcut]

lemma Ready.skipComment_markup (hi : i.Ready) (t : Text) :
    (i.leaving ('!' :: '-' :: '-' :: t)).skipComment '<' = skippedThrough ['-', '-', '>'] i t := by
  have hthrough : readThrough '-' ['-', '>'] (plainReader '-') [] (i.leaving t) = _ :=
    (hi.leaving t).readThrough_eq (by decide) (Nat.zero_le _) []
  have hopening : readExactly ['!', '-'] (i.leaving ('!' :: '-' :: '-' :: t)) =
      .ok true (i.leaving ('-' :: t)) := by simp [readExactly, hi.next_leaving]
  rw [skipComment, if_neg (by decide), if_neg (by decide), if_pos rfl, skipMarkup, hopening]
  cases hcut : cutUnescaped? ['-', '-', '>'] t with
  | none => simp [hi.next_leaving, hthrough, skippedThrough, hcut]
  | some cut => simp [hi.next_leaving, hthrough, skippedThrough, hcut]

/-- A slash that begins no comment; the character behind it has been looked at. -/
lemma Ready.skipComment_slash (hi : i.Ready) {t : Text} (hline : t.head? ≠ some '/')
    (hblock : t.head? ≠ some '*') :
    (i.leaving t).skipComment '/' = .ok false ((i.leaving (t.drop 1)).unreadOption t.head?) := by
  simp [skipComment, hi.next_leaving, hline, hblock]

/-- An angle that begins no comment, as its next character tells. -/
lemma Ready.skipComment_angle (hi : i.Ready) {t : Text} (hmarkup : t.head? ≠ some '!') :
    (i.leaving t).skipComment '<' = .ok false ((i.leaving (t.drop 1)).unreadOption t.head?) := by
  simp [skipComment, skipMarkup, readExactly, hi.next_leaving, hmarkup]

lemma skipComment_of_not_starts (h : startsComment c = false) (i : Input) :
    i.skipComment c = .ok false i := by
  simp only [startsComment, Bool.or_eq_false_iff, beq_eq_false_iff_ne] at h
  rw [skipComment, if_neg h.1.1, if_neg h.1.2, if_neg h.2]

/-- Markup is a comment only behind both its dashes. -/
lemma Ready.of_skipMarkup (hi : i.Ready) {t : Text} (h : (i.leaving t).skipMarkup = .ok true j) :
    ∃ u, t = '!' :: '-' :: '-' :: u := by
  unfold skipMarkup at h
  by_cases hp : ['!', '-'] <+: t
  · obtain ⟨u, rfl⟩ := hp
    have hread : readExactly ['!', '-'] (i.leaving (['!', '-'] ++ u)) = .ok true (i.leaving u) := by
      have hprefix : ['!', '-'] <+: (i.leaving (['!', '-'] ++ u)).pending := List.prefix_append _ u
      rw [(hi.leaving _).readExactly_of_startsWith hprefix, drop_leaving, List.drop_left]
    simp only [hread, hi.next_leaving] at h
    split at h
    · rename_i hdash
      obtain ⟨r, rfl⟩ := List.head?_eq_some_iff.1 hdash
      exact ⟨r, rfl⟩
    · split at h <;> cases h
  · obtain ⟨k, hk, -⟩ := (hi.leaving t).readExactly_of_not_startsWith hp
    simp [hk] at h

/-- What has been skipped is a complete comment, unless nothing is left behind it. -/
lemma Ready.of_skipComment (hi : i.Ready) {t : Text}
    (h : (i.leaving t).skipComment c = .ok true j) :
    ∃ after, j = i.leaving after ∧ (after = [] ∨ ∃ u, Comment (c :: u) ∧ t = u ++ after) := by
  -- One case per opening; a line comment may lack its end only where the text ends.
  by_cases hhash : c = '#'
  · subst hhash
    rw [hi.skipComment_hash] at h
    cases h
    refine ⟨_, rfl, (of_joinLines t).imp_right ?_⟩
    rintro ⟨u, hu, ht⟩
    exact ⟨u, .hash hu, ht⟩
  by_cases hslash : c = '/'
  · subst hslash
    rcases t with _ | ⟨d, t⟩
    · simp [skipComment, hi.next_leaving] at h
    by_cases hline : d = '/'
    · subst hline
      rw [hi.skipComment_slashes] at h
      cases h
      refine ⟨_, rfl, (of_joinLines t).imp_right ?_⟩
      rintro ⟨u, hu, ht⟩
      exact ⟨'/' :: u, .slashes hu, by rw [List.cons_append, ← ht]⟩
    by_cases hblock : d = '*'
    · subst hblock
      rw [hi.skipComment_block] at h
      obtain ⟨u, after, hu, rfl, rfl⟩ := of_skippedThrough h
      exact ⟨after, rfl, .inr ⟨'*' :: (u ++ ['*', '/']), .block hu, by simp⟩⟩
    · simp [skipComment, hi.next_leaving, hline, hblock] at h
  by_cases hmarkup : c = '<'
  · subst hmarkup
    obtain ⟨t, rfl⟩ := hi.of_skipMarkup h
    rw [hi.skipComment_markup] at h
    obtain ⟨u, after, hu, rfl, rfl⟩ := of_skippedThrough h
    exact ⟨after, rfl, .inr ⟨'!' :: '-' :: '-' :: (u ++ ['-', '-', '>']), .markup hu, by simp⟩⟩
  · rw [skipComment, if_neg hhash, if_neg hslash, if_neg hmarkup] at h
    cases h

lemma Comment.exists_cons {u : Text} (hu : Comment u) : ∃ c v, u = c :: v := by
  cases hu <;> exact ⟨_, _, rfl⟩

/-- A complete comment is skipped. -/
lemma Ready.skipComment_append (hi : i.Ready) {u : Text} (hu : Comment (c :: u)) (t : Text) :
    (i.leaving (u ++ t)).skipComment c = .ok true (i.leaving t) := by
  cases hu with
  | hash hu => rw [hi.skipComment_hash, joinLines_append hu]
  | slashes hu => rw [List.cons_append, hi.skipComment_slashes, joinLines_append hu]
  | block hu =>
    rw [List.cons_append, List.append_assoc, hi.skipComment_block]
    exact skippedThrough_append (by decide) hu i t
  | markup hu =>
    rw [List.cons_append, List.cons_append, List.cons_append, List.append_assoc,
      hi.skipComment_markup]
    exact skippedThrough_append (by decide) hu i t

/-! ## Comments and whitespace -/

section Skipping

variable {skipped t : Text}

lemma skipTrivia_of_none (h : i.next = .ok none j) : i.skipTrivia skipped = .ok () j := by
  rw [skipTrivia]
  grind

/-- Skipping goes by the next character. -/
lemma skipTrivia_of_next (h : i.next = .ok (some c) j) :
    i.skipTrivia skipped =
      match j.skipComment c with
      | .error e k => .error e k
      | .ok true k => skipTrivia skipped k
      | .ok false k =>
        if isSkipped skipped c then skipTrivia skipped k else .ok () (k.unread c) := by
  rw [skipTrivia]
  -- The recursion asks for the length of what is left, so that it has to be opened by its cases.
  split
  · rename_i hnext
    cases h.symm.trans hnext
  · rename_i hnext
    cases h.symm.trans hnext
  · rename_i d m hnext
    cases h.symm.trans hnext
    split <;> rename_i hskip <;> rw [hskip]

lemma Ready.skipTrivia_cons (hi : i.Ready) (hback : i.pushback.length ≤ 1)
    (hp : i.pending = c :: t) :
    i.skipTrivia skipped =
      match (i.leaving t).skipComment c with
      | .error e j => .error e j
      | .ok true j => skipTrivia skipped j
      | .ok false j =>
        if isSkipped skipped c then skipTrivia skipped j else .ok () (j.unread c) :=
  skipTrivia_of_next (hi.next_of_pending hback hp)

lemma Ready.skipTrivia_ordinary (hi : i.Ready) (hback : i.pushback.length ≤ 1)
    (hc : Ordinary skipped c) (hp : i.pending = c :: t) :
    i.skipTrivia skipped = .ok () ((i.leaving t).unread c) := by
  have hkept : isSkipped skipped c = false := by simp [isSkipped, hc.kept]
  rw [hi.skipTrivia_cons hback hp, skipComment_of_not_starts hc.starts]
  simp [hkept]

lemma Ready.skipTrivia_blank (hi : i.Ready) (hback : i.pushback.length ≤ 1)
    (hs : startsComment c = false) (hc : c ∈ skipped) (hp : i.pending = c :: t) :
    i.skipTrivia skipped = (i.leaving t).skipTrivia skipped := by
  have hskip : isSkipped skipped c = true := by
    simp only [startsComment, Bool.or_eq_false_iff, beq_eq_false_iff_ne] at hs
    simp [isSkipped, hc, hs]
  rw [hi.skipTrivia_cons hback hp, skipComment_of_not_starts hs]
  simp [hskip]

lemma Ready.skipTrivia_comment (hi : i.Ready) (hback : i.pushback.length ≤ 1) {u : Text}
    (hu : Comment u) (hp : i.pending = u ++ t) :
    i.skipTrivia skipped = (i.leaving t).skipTrivia skipped := by
  obtain ⟨c, v, rfl⟩ := hu.exists_cons
  rw [hi.skipTrivia_cons hback hp, List.append_eq, hi.skipComment_append hu]

/-- Trivia in front of an ordinary character are skipped. -/
lemma Ready.skipTrivia_append (hi : i.Ready) (hback : i.pushback.length ≤ 1)
    (hs : ∀ d ∈ skipped, startsComment d = false) (hc : Ordinary skipped c) {u : Text}
    (hu : Trivia skipped u) (hp : i.pending = u ++ c :: t) :
    i.skipTrivia skipped = .ok () ((i.leaving t).unread c) := by
  induction hu generalizing i with
  | nil => exact hi.skipTrivia_ordinary hback hc hp
  | @blank d u hd _ ih =>
    rw [hi.skipTrivia_blank hback (hs d hd) hd hp]
    exact ih (hi.leaving _) (Nat.zero_le _) rfl
  | @comment v u hv _ ih =>
    rw [List.append_assoc] at hp
    rw [hi.skipTrivia_comment hback hv hp]
    exact ih (hi.leaving _) (Nat.zero_le _) rfl

/-- What is skipped before an ordinary character are trivia. -/
lemma Ready.of_skipTrivia (hi : i.Ready) (hback : i.pushback.length ≤ 1)
    (hs : ∀ d ∈ skipped, startsComment d = false) (hc : Ordinary skipped c) {k : Input}
    (h : i.skipTrivia skipped = .ok () j) (hnext : j.next = .ok (some c) k) :
    ∃ u t, Trivia skipped u ∧ i.pending = u ++ c :: t ∧ k = i.leaving t := by
  fun_induction skipTrivia skipped i with
  | case1 => cases h
  | case2 i l hl =>
    obtain ⟨hp, rfl⟩ := hi.of_next_none hl
    cases h
    rw [(hi.drop 1).next_eq, pending_drop, hp] at hnext
    cases hnext
  | case3 => cases h
  | case4 i d l hl m hm ih =>
    obtain ⟨s, hp, rfl⟩ := hi.of_next_some hl
    rw [drop_eq_leaving hi hback, hp] at hm
    obtain ⟨after, rfl, hafter⟩ := hi.of_skipComment hm
    obtain ⟨v, t, hv, ht, rfl⟩ := ih (hi.leaving _) (Nat.zero_le _) h
    rw [pending_leaving] at ht
    rcases hafter with rfl | ⟨u, hu, hs⟩
    -- A comment that the text ends in is followed by no character at all.
    · cases v <;> cases ht
    · refine ⟨d :: u ++ v, t, .comment hu hv, ?_, rfl⟩
      rw [hp, List.append_assoc, ← ht, List.cons_append, ← hs]
      rfl
  | case5 i d l hl m hm hskip ih =>
    obtain ⟨s, hp, rfl⟩ := hi.of_next_some hl
    have hd : d ∈ skipped := by
      simp only [isSkipped, Bool.and_eq_true, List.contains_iff_mem] at hskip
      exact hskip.2
    rw [drop_eq_leaving hi hback, hp, skipComment_of_not_starts (hs d hd)] at hm
    cases hm
    obtain ⟨v, t, hv, ht, rfl⟩ := ih (hi.leaving _) (Nat.zero_le _) h
    refine ⟨d :: v, t, .blank hd hv, ?_, rfl⟩
    rw [hp, List.cons_append, ← ht]
    rfl
  | case6 i d l hl m hm hskip =>
    obtain ⟨s, hp, rfl⟩ := hi.of_next_some hl
    cases h
    cases hnext
    rw [drop_eq_leaving hi hback, hp, skipComment_of_not_starts hc.starts] at hm
    cases hm
    exact ⟨[], s, .nil, hp, rfl⟩

/-- **What stands in front of an ordinary character and is skipped are trivia.**  For the character
read after skipping, being ordinary, this is all that the text can be. -/
lemma Ready.next_skipTrivia_iff (hi : i.Ready) (hback : i.pushback.length ≤ 1)
    (hs : ∀ d ∈ skipped, startsComment d = false) (hc : Ordinary skipped c) :
    (∃ k, i.skipTrivia skipped = .ok () k ∧ k.next = .ok (some c) j) ↔
      ∃ u t, Trivia skipped u ∧ i.pending = u ++ c :: t ∧ j = i.leaving t := by
  constructor
  · rintro ⟨k, hk, hnext⟩
    exact hi.of_skipTrivia hback hs hc hk hnext
  · rintro ⟨u, t, hu, hp, rfl⟩
    exact ⟨_, hi.skipTrivia_append hback hs hc hu hp, rfl⟩

end Skipping

end Stencil.Input
