import Mathlib.Data.List.Infix
import Stencil.Proofs.Input.Trivia

/-!
# Lines that have been pushed back

A line of the source has newlines in it expanded and may be joined to the next one, and it ends at a
newline only.  A line that ends among the pushed-back characters is given as it stands; there a
carriage return ends a line too, and a second character that could end one is taken with the first.
So the same text may read differently once it has been pushed back.

`currentLine` is what reading a line comes to, given where the pushed-back text ends and the source
goes on.  The main statement, `currentLine_eq_iff`, says when this makes no difference: a line that
ends among the pushed-back characters has to be even (`isEven`), and any other is read alike anyway.
What is left after the line needs less, `endsEvenly` (`currentLine_snd`), and this is kept by taking
away the end of the text, or plain characters at its start.
-/

namespace Stencil.Input

/-! ## Lines among pushed-back characters -/

/-- Whether a character ends a line among pushed-back characters. -/
def endsLine (c : Char) : Bool := c == '\r' || c == '\n'

/-- What follows a line among pushed-back characters: a second character that ends a line is taken
with the first. -/
def afterEnd : Text → Text
  | [] => []
  | c :: t => if endsLine c then t else c :: t

section PushedLine

variable {line t : Text} {e : Char}

lemma pushedLine_of_plain (h : ∀ c ∈ t, endsLine c = false) : pushedLine t = (t, none) := by
  induction t with
  | nil => rfl
  | cons c t ih =>
    obtain ⟨hc, ht⟩ := List.forall_mem_cons.1 h
    have hc' : ¬ (c = '\r' ∨ c = '\n') := by simpa [endsLine] using hc
    simp only [pushedLine, if_neg hc', ih ht]

lemma pushedLine_line (h : ∀ c ∈ line, endsLine c = false) (he : endsLine e = true) (t : Text) :
    pushedLine (line ++ e :: t) = (line, some (afterEnd t)) := by
  induction line with
  | nil =>
    have he' : e = '\r' ∨ e = '\n' := by simpa [endsLine] using he
    cases t with
    | nil => simp [pushedLine, he', afterEnd]
    | cons c t => simp [pushedLine, he', afterEnd, endsLine]
  | cons c line ih =>
    obtain ⟨hc, hline⟩ := List.forall_mem_cons.1 h
    have hc' : ¬ (c = '\r' ∨ c = '\n') := by simpa [endsLine] using hc
    simp only [List.cons_append, pushedLine, if_neg hc', ih hline]

/-- A text has no end of a line, or a first one. -/
lemma exists_line (t : Text) : (∀ c ∈ t, endsLine c = false) ∨
    ∃ line e u, t = line ++ e :: u ∧ (∀ c ∈ line, endsLine c = false) ∧ endsLine e = true := by
  induction t with
  | nil => exact .inl (by simp)
  | cons c t ih =>
    cases hc : endsLine c with
    | true => exact .inr ⟨[], c, t, rfl, by simp, hc⟩
    | false =>
      rcases ih with h | ⟨line, e, u, rfl, h, he⟩
      · exact .inl (List.forall_mem_cons.2 ⟨hc, h⟩)
      · exact .inr ⟨c :: line, e, u, rfl, List.forall_mem_cons.2 ⟨hc, h⟩, he⟩

lemma newline_notMem (h : ∀ c ∈ line, endsLine c = false) : '\n' ∉ line := fun hmem => by
  simpa [endsLine] using h _ hmem

lemma dropReturn_eq_self (h : ∀ c ∈ line, endsLine c = false) : dropReturn line = line := by
  refine if_neg fun hlast => ?_
  simpa [endsLine] using h _ (List.mem_of_getLast? hlast)

end PushedLine

/-- The rest of the current line and the text after it, where `pushed` has been pushed back and
`after` is left of the source. -/
def currentLine (pushed after : Text) : Text × Text :=
  match pushedLine pushed with
  | (line, some left) => (line, left ++ after)
  | (line, none) => joinLines line after

/-- Whether a line that has been pushed back ends as one of the source does: at a newline that
nothing is taken with, and without being joined to the next line. -/
def endsEvenly (t : Text) : Bool :=
  match pushedLine t with
  | (line, some left) => line.getLast? != some '\\' && t == line ++ '\n' :: left
  | (_, none) => true

/-- Whether a line that ends among the pushed-back characters has no newlines to be expanded. -/
def isLiteral (t : Text) : Bool :=
  match pushedLine t with
  | (line, some _) => expandNewlines line == line
  | (_, none) => true

/-- Whether a line that has been pushed back is read as if it had not been. -/
def isEven (pushed after : Text) : Bool :=
  match pushedLine pushed with
  | (line, some left) =>
    expandNewlines line == line && line.getLast? != some '\\' &&
      (pushed == line ++ '\n' :: left || pushed == line ++ '\r' :: '\n' :: left ||
        (pushed == line ++ ['\r'] && after.isEmpty))
  | (_, none) => true

section CurrentLine

variable {i : Input} {line pushed after t u : Text} {e : Char}

lemma exists_readLine (hi : i.isClosed = false) :
    ∃ j, i.readLine = .ok (currentLine i.pushback i.rest).1 j ∧
      j.pending = (currentLine i.pushback i.rest).2 ∧ j.targets = i.targets ∧
      j.isClosed = false ∧ j.pushback = (pushedLine i.pushback).2.getD [] := by
  unfold readLine currentLine
  cases hp : pushedLine i.pushback with
  | mk line left =>
    cases left with
    | some left => exact ⟨_, rfl, rfl, rfl, hi, rfl⟩
    | none =>
      simp only [hi]
      exact ⟨_, rfl, rfl, rfl, rfl, rfl⟩

lemma dropReturn_append (h : ∀ c ∈ line, endsLine c = false) (t : Text) :
    dropReturn (line ++ t) = line ++ dropReturn t := by
  -- Only the last character counts, and it is that of the second text unless that is empty.
  cases ht : t.getLast? with
  | none =>
    obtain rfl := List.getLast?_eq_none_iff.1 ht
    simpa [dropReturn] using dropReturn_eq_self h
  | some c =>
    have hne : t ≠ [] := by rintro rfl; simp at ht
    have hlast : (line ++ t).getLast? = t.getLast? := by simp [List.getLast?_append, ht]
    unfold dropReturn
    rw [hlast]
    split
    · exact List.dropLast_append_of_ne_nil hne
    · rfl

/-- A line that goes on in the source is the same line wherever it starts. -/
lemma currentLine_of_plain (h : ∀ c ∈ pushed, endsLine c = false) (after : Text) :
    currentLine pushed after = joinLines [] (pushed ++ after) := by
  have hsplit := splitLine_of_notMem (newline_notMem h) after
  have htext : lineText pushed after = lineText [] (pushed ++ after) := by
    rw [lineText, lineText, hsplit, List.nil_append, dropReturn_append h]
  rw [currentLine, pushedLine_of_plain h]
  change joinLines pushed after = _
  rw [joinLines.eq_def [] (pushed ++ after), joinLines.eq_def pushed, htext, hsplit]

lemma length_splitLine_snd_lt (h : t ≠ []) : (splitLine t).2.length < t.length := by
  have hlen := congrArg List.length (List.takeWhile_append_dropWhile (p := (· != '\n')) (l := t))
  have hpos := List.length_pos_iff.2 h
  simp only [splitLine, List.length_drop]
  simp only [List.length_append] at hlen
  omega

/-- What is left after a line is the end of the text. -/
lemma suffix_joinLines (before t : Text) : (joinLines before t).2 <:+ t := by
  have hsplit : ∀ t : Text, (splitLine t).2 <:+ t := fun t =>
    (List.drop_suffix 1 _).trans (List.dropWhile_suffix _)
  fun_induction joinLines before t with
  | case1 before t _ _ ih => exact ih.trans (hsplit t)
  | case2 before t _ => exact hsplit t

/-- What follows a text without newlines is not left by a line that starts with it. -/
lemma eq_nil_of_joinLines (hn : '\n' ∉ line) (h : (joinLines [] (line ++ t)).2 = t) : t = [] := by
  by_contra ht
  have hlt := length_splitLine_snd_lt ht
  have hle := length_joinLines_le [] (splitLine t).2
  rw [joinLines, splitLine_of_notMem hn] at h
  split at h
  · simp only at h
    rw [h] at hle
    omega
  · simp only at h
    rw [h] at hlt
    omega

lemma length_expandNewlines_le (t : Text) : (expandNewlines t).length ≤ t.length := by
  fun_induction expandNewlines t with simp <;> omega

lemma mem_expandNewlines (hn : e ≠ 'n') (hb : e ≠ '\\') (h : e ∈ t) : e ∈ expandNewlines t := by
  fun_induction expandNewlines t with grind

/-- A line that is joined to the next has lost a character. -/
lemma dropLast_expandNewlines_ne (hb : line.getLast? = some '\\') :
    (expandNewlines line).dropLast ≠ line := by
  intro h
  have hlen := congrArg List.length h
  have hle := length_expandNewlines_le line
  have hpos : 0 < line.length := List.length_pos_iff.2 (by rintro rfl; simp at hb)
  rw [List.length_dropLast] at hlen
  omega

/-- A line of the source that is given as it stands. -/
lemma joinLines_eq_iff (hn : '\n' ∉ line) (t : Text) :
    joinLines [] (line ++ '\n' :: t) = (dropReturn line, t) ↔
      expandNewlines (dropReturn line) = dropReturn line ∧
        (dropReturn line).getLast? ≠ some '\\' := by
  by_cases hb : (dropReturn line).getLast? = some '\\'
  · rw [joinLines_joined hn hb]
    refine iff_of_false (fun h => ?_) fun h => h.2 hb
    obtain ⟨hline, ht⟩ := Prod.mk.inj h
    obtain rfl := eq_nil_of_joinLines List.not_mem_nil ht
    rw [joinLines_nil, List.append_nil] at hline
    exact dropLast_expandNewlines_ne hb hline
  · rw [joinLines_line hn hb]
    simp [hb]

lemma currentLine_line (h : ∀ c ∈ line, endsLine c = false) (he : endsLine e = true)
    (u after : Text) : currentLine (line ++ e :: u) after = (line, afterEnd u ++ after) := by
  rw [currentLine, pushedLine_line h he]

lemma isEven_line (h : ∀ c ∈ line, endsLine c = false) (he : endsLine e = true) (u after : Text) :
    isEven (line ++ e :: u) after = true ↔
      (expandNewlines line = line ∧ line.getLast? ≠ some '\\') ∧
        (e :: u = '\n' :: afterEnd u ∨ e :: u = '\r' :: '\n' :: afterEnd u ∨
          e :: u = ['\r'] ∧ after = []) := by
  rw [isEven, pushedLine_line h he]
  simp [or_assoc]

/-- A carriage return alone ends no line of the source, unless it is the last of the text. -/
lemma joinLines_return_iff (h : ∀ c ∈ line, endsLine c = false) (t : Text) :
    joinLines [] (line ++ '\r' :: t) = (line, t) ↔
      (expandNewlines line = line ∧ line.getLast? ≠ some '\\') ∧ t = [] := by
  have hn : '\n' ∉ line ++ ['\r'] := by simpa using newline_notMem h
  have hline : dropReturn (line ++ ['\r']) = line := by simp [dropReturn]
  have hsplit : line ++ '\r' :: t = line ++ ['\r'] ++ t := by simp
  constructor
  · intro heq
    -- A line of the source goes on to a newline; with none before the return, it takes the rest.
    have ht : t = [] := eq_nil_of_joinLines hn (by rw [← hsplit, heq])
    subst ht
    rw [joinLines_last hn, hline] at heq
    split at heq
    · rename_i hb
      exact absurd (Prod.mk.inj heq).1 (dropLast_expandNewlines_ne hb)
    · rename_i hb
      exact ⟨⟨(Prod.mk.inj heq).1, hb⟩, rfl⟩
  · rintro ⟨⟨hexpand, hb⟩, rfl⟩
    rw [joinLines_last hn, hline, if_neg hb, hexpand]

/-- Two carriage returns end no line of the source. -/
lemma joinLines_returns_ne (h : ∀ c ∈ line, endsLine c = false) (t : Text) :
    joinLines [] (line ++ '\r' :: '\r' :: t) ≠ (line, t) := by
  intro heq
  have hn : '\n' ∉ line ++ ['\r', '\r'] := by simpa using newline_notMem h
  have hline : dropReturn (line ++ ['\r', '\r']) = line ++ ['\r'] := by
    simp [dropReturn, List.dropLast_append_of_ne_nil]
  have hsplit : line ++ '\r' :: '\r' :: t = line ++ ['\r', '\r'] ++ t := by simp
  have ht : t = [] := eq_nil_of_joinLines hn (by rw [← hsplit, heq])
  subst ht
  have hmem : '\r' ∈ expandNewlines (line ++ ['\r']) :=
    mem_expandNewlines (by decide) (by decide) (by simp)
  rw [joinLines_last hn, hline, if_neg (by simp)] at heq
  rw [(Prod.mk.inj heq).1] at hmem
  simpa [endsLine] using h _ hmem

/-- A second character that ends a line is not taken with a newline of the source. -/
lemma joinLines_newline_ne (h : ∀ c ∈ line, endsLine c = false) {d : Char}
    (hd : endsLine d = true) (t : Text) : joinLines [] (line ++ '\n' :: d :: t) ≠ (line, t) := by
  intro heq
  have hn := newline_notMem h
  have hline := dropReturn_eq_self h
  by_cases hb : line.getLast? = some '\\'
  · -- The line that is joined would have to make up for the backslash, but it is empty.
    rw [joinLines_joined hn (by rwa [hline]), hline] at heq
    obtain ⟨hvalue, hrest⟩ := Prod.mk.inj heq
    have hnone : (joinLines [] (d :: t)).1 = [] := by
      have hd' : d = '\r' ∨ d = '\n' := by simpa [endsLine] using hd
      rcases hd' with rfl | rfl
      · have hreturn : '\n' ∉ ['\r'] := by decide
        obtain rfl : t = [] := eq_nil_of_joinLines hreturn hrest
        rw [joinLines_last (by decide)]
        rfl
      · rw [← List.nil_append ('\n' :: t), joinLines_line (by simp) (by decide)]
        rfl
    rw [hnone, List.append_nil] at hvalue
    exact dropLast_expandNewlines_ne hb hvalue
  · rw [joinLines_line hn (by rwa [hline])] at heq
    simpa using congrArg List.length (Prod.mk.inj heq).2

/-- A line that ends among the pushed-back characters is read as one of the source exactly if it is
even. -/
theorem currentLine_eq_iff (pushed after : Text) :
    currentLine pushed after = joinLines [] (pushed ++ after) ↔ isEven pushed after = true := by
  rcases exists_line pushed with h | ⟨line, e, u, rfl, h, he⟩
  · rw [currentLine_of_plain h, isEven, pushedLine_of_plain h]
    simp
  have hn := newline_notMem h
  rw [currentLine_line h he, isEven_line h he, eq_comm, List.append_assoc]
  -- Which characters are taken at the end depends on the one that ends the line and on the one
  -- behind it.
  have he' : e = '\r' ∨ e = '\n' := by simpa [endsLine] using he
  rcases he' with rfl | rfl
  · cases u with
    | nil => simpa [afterEnd] using joinLines_return_iff h after
    | cons d u =>
      cases hd : endsLine d with
      | false => simpa [afterEnd, hd] using joinLines_return_iff h (d :: u ++ after)
      | true =>
        have hd' : d = '\r' ∨ d = '\n' := by simpa [endsLine] using hd
        rcases hd' with rfl | rfl
        · simpa [afterEnd, hd] using joinLines_returns_ne h (u ++ after)
        · have hnr : '\n' ∉ line ++ ['\r'] := by simpa using hn
          have hreturn : dropReturn (line ++ ['\r']) = line := by simp [dropReturn]
          have hpair := joinLines_eq_iff hnr (u ++ after)
          rw [hreturn] at hpair
          simpa [afterEnd, hd] using hpair
  · cases u with
    | nil =>
      have hline := joinLines_eq_iff hn after
      rw [dropReturn_eq_self h] at hline
      simpa [afterEnd] using hline
    | cons d u =>
      cases hd : endsLine d with
      | false =>
        have hline := joinLines_eq_iff hn (d :: u ++ after)
        rw [dropReturn_eq_self h] at hline
        simpa [afterEnd, hd] using hline
      | true => simpa [afterEnd, hd] using joinLines_newline_ne h hd (u ++ after)

lemma endsEvenly_line (h : ∀ c ∈ line, endsLine c = false) (he : endsLine e = true) (u : Text) :
    endsEvenly (line ++ e :: u) = true ↔
      line.getLast? ≠ some '\\' ∧ e = '\n' ∧ u = afterEnd u := by
  rw [endsEvenly, pushedLine_line h he]
  simp

lemma endsEvenly_of_append (h : endsEvenly (t ++ u) = true) : endsEvenly t = true := by
  rcases exists_line t with ht | ⟨line, e, v, rfl, hline, he⟩
  · rw [endsEvenly, pushedLine_of_plain ht]
  · rw [List.append_assoc, List.cons_append, endsEvenly_line hline he] at h
    rw [endsEvenly_line hline he]
    obtain ⟨hb, hn, hv⟩ := h
    refine ⟨hb, hn, ?_⟩
    cases v with
    | nil => rfl
    | cons d v => cases hd : endsLine d <;> simp_all [afterEnd]

lemma endsEvenly_of_plain_append (ht : ∀ c ∈ t, endsLine c = false)
    (h : endsEvenly (t ++ u) = true) : endsEvenly u = true := by
  rcases exists_line u with hu | ⟨line, e, v, rfl, hline, he⟩
  · rw [endsEvenly, pushedLine_of_plain hu]
  · have hall : ∀ c ∈ t ++ line, endsLine c = false := List.forall_mem_append.2 ⟨ht, hline⟩
    rw [← List.append_assoc, endsEvenly_line hall he] at h
    rw [endsEvenly_line hline he]
    exact ⟨fun hb => h.1 (by rw [List.getLast?_append, hb]; rfl), h.2⟩

lemma isLiteral_of_append (h : isLiteral (t ++ u) = true) : isLiteral t = true := by
  rcases exists_line t with ht | ⟨line, e, v, rfl, hline, he⟩
  · rw [isLiteral, pushedLine_of_plain ht]
  · rw [List.append_assoc, List.cons_append, isLiteral, pushedLine_line hline he] at h
    rw [isLiteral, pushedLine_line hline he]
    exact h

/-- A line that ends evenly leaves what it leaves in the source. -/
lemma currentLine_snd (h : endsEvenly pushed = true) (after : Text) :
    (currentLine pushed after).2 = (joinLines [] (pushed ++ after)).2 := by
  rcases exists_line pushed with hp | ⟨line, e, u, rfl, hline, he⟩
  · rw [currentLine_of_plain hp]
  · obtain ⟨hb, rfl, hu⟩ := (endsEvenly_line hline he u).1 h
    have hlast := dropReturn_eq_self hline
    rw [currentLine_line hline he, List.append_assoc, List.cons_append,
      joinLines_line (newline_notMem hline) (by rwa [hlast]), ← hu]

lemma isEven_of_isLiteral (h : endsEvenly pushed = true) (hl : isLiteral pushed = true)
    (after : Text) : isEven pushed after = true := by
  rcases exists_line pushed with hp | ⟨line, e, u, rfl, hline, he⟩
  · rw [isEven, pushedLine_of_plain hp]
  · obtain ⟨hb, rfl, hu⟩ := (endsEvenly_line hline he u).1 h
    rw [isLiteral, pushedLine_line hline he] at hl
    exact (isEven_line hline he u after).2 ⟨⟨by simpa using hl, hb⟩, .inl (by rw [← hu])⟩

/-- What is left of the pushed-back characters stands in them. -/
lemma isInfix_left (t : Text) : (pushedLine t).2.getD [] <:+: t := by
  rcases exists_line t with ht | ⟨line, e, u, rfl, hline, he⟩
  · rw [pushedLine_of_plain ht]
    exact List.nil_infix
  · have hu : afterEnd u <:+ u := by
      cases u with
      | nil => exact List.suffix_rfl
      | cons d u => cases hd : endsLine d <;> simp [afterEnd, hd]
    rw [pushedLine_line hline he]
    exact (hu.trans (List.suffix_append_of_suffix (List.suffix_cons e u))).isInfix

end CurrentLine

end Stencil.Input
