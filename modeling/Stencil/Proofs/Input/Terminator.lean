import Stencil.Proofs.Input.Ready

/-!
# Terminators and escapes

What reading up to a terminator makes of the pending text.  A text runs in units, a backslash with
the character after it or a single other character, and a terminator counts only where a unit
starts: `Precedes` is the grammar of what stands before the first place where it does, and
`cutUnescaped?` cuts a text there.  `unescape` reads the units off.

The readers are then equations: `Ready.readTo_eq` for a terminator of one character, which is taken
wherever it was pushed back, and `Ready.readThrough_eq` for one of several.  The latter finds the
terminator by its first character and pushes back what follows when it is another text, as much as
the terminator is long (`Ready.readExactly_of_not_startsWith`); so whatever was pushed back is used
up when the terminator is found.
-/

namespace Stencil.Input

/-! ## Escapes -/

/-- The text that a text with escapes stands for.  A backslash at the end stands for nothing. -/
def unescape : Text → Text
  | [] => []
  | c :: t =>
    if c = '\\' then
      match t with
      | [] => []
      | d :: t => escaped d ++ unescape t
    else c :: unescape t

@[simp] lemma unescape_nil : unescape [] = [] := rfl

lemma unescape_escape (c : Char) (t : Text) :
    unescape ('\\' :: c :: t) = escaped c ++ unescape t := rfl

lemma unescape_plain {c : Char} (hc : c ≠ '\\') (t : Text) :
    unescape (c :: t) = c :: unescape t := by
  rw [unescape.eq_def]
  exact if_neg hc

/-- A text without backslashes stands for itself. -/
lemma unescape_eq_self {t : Text} (ht : '\\' ∉ t) : unescape t = t := by
  induction t with
  | nil => rfl
  | cons c t ih =>
    obtain ⟨hc, ht⟩ : '\\' ≠ c ∧ '\\' ∉ t := by simpa using ht
    rw [unescape_plain hc.symm, ih ht]

/-! ## Unescaped terminators -/

/-- A text that a terminator can follow and that does not hold it: read in units, it comes to its
end before the terminator stands where a unit starts. -/
inductive Precedes (ending : Text) : Text → Prop where
  | nil : Precedes ending []
  | plain {c : Char} {t : Text} (hc : c ≠ '\\') (he : ¬ ending <+: c :: (t ++ ending))
      (ht : Precedes ending t) : Precedes ending (c :: t)
  | escape {c : Char} {t : Text} (ht : Precedes ending t) : Precedes ending ('\\' :: c :: t)

/-- A text without backslashes holds a character only where it stands. -/
lemma precedes_of_notMem {closing : Char} {t : Text} (hb : '\\' ∉ t) (hc : closing ∉ t) :
    Precedes [closing] t := by
  induction t with
  | nil => exact .nil
  | cons c t ih =>
    obtain ⟨hback, hb⟩ : '\\' ≠ c ∧ '\\' ∉ t := by simpa using hb
    obtain ⟨hclosing, hc⟩ : closing ≠ c ∧ closing ∉ t := by simpa using hc
    exact .plain hback.symm (by simp [hclosing]) (ih hb hc)

/-- What stands before and after the first unescaped occurrence of a terminator. -/
def cutUnescaped? (ending : Text) : Text → Option (Text × Text)
  | [] => none
  | c :: t =>
    if c = '\\' then
      match t with
      | [] => none
      | d :: t => (cutUnescaped? ending t).map fun (before, after) => ('\\' :: d :: before, after)
    else if ending.isPrefixOf (c :: t) then some ([], (c :: t).drop ending.length)
    else (cutUnescaped? ending t).map fun (before, after) => (c :: before, after)

lemma cutUnescaped?_escape (ending : Text) (c : Char) (t : Text) :
    cutUnescaped? ending ('\\' :: c :: t) =
      (cutUnescaped? ending t).map fun (before, after) => ('\\' :: c :: before, after) := rfl

lemma cutUnescaped?_plain (ending : Text) {c : Char} (hc : c ≠ '\\') (t : Text) :
    cutUnescaped? ending (c :: t) =
      if ending <+: c :: t then some ([], (c :: t).drop ending.length)
      else (cutUnescaped? ending t).map fun (before, after) => (c :: before, after) := by
  rw [cutUnescaped?.eq_def]
  simp only [if_neg hc, List.isPrefixOf_iff_prefix]

section Cut

variable {ending : Text} {first : Char} {others : Text}

/-- A text is cut where its units first come to the terminator. -/
lemma cutUnescaped?_append (hf : first ≠ '\\') {before : Text}
    (hb : Precedes (first :: others) before) (after : Text) :
    cutUnescaped? (first :: others) (before ++ (first :: others ++ after)) =
      some (before, after) := by
  induction hb with
  | nil =>
    rw [List.nil_append, List.cons_append, cutUnescaped?_plain _ hf, if_pos ⟨after, rfl⟩]
    simp
  | @plain c t hc he _ ih =>
    -- A terminator that began here would begin in the text before the cut, since that is followed
    -- by one.
    have hprefix : ¬ first :: others <+: c :: (t ++ (first :: others ++ after)) := by
      intro h
      refine he (List.prefix_of_prefix_length_le h ⟨after, by simp⟩ ?_)
      simp only [List.length_cons, List.length_append]
      omega
    rw [List.cons_append, cutUnescaped?_plain _ hc, if_neg hprefix, ih, Option.map_some]
  | @escape c t _ ih =>
    rw [List.cons_append, List.cons_append, cutUnescaped?_escape, ih, Option.map_some]

/-- The two sides of a cut and the terminator make up the text. -/
lemma of_cutUnescaped? {t before after : Text}
    (h : cutUnescaped? (first :: others) t = some (before, after)) :
    Precedes (first :: others) before ∧ t = before ++ (first :: others ++ after) := by
  fun_induction cutUnescaped? (first :: others) t generalizing before with
  | case1 => simp at h
  | case2 => simp at h
  | case3 d t ih =>
    obtain ⟨⟨b, a⟩, hcut, he⟩ := Option.map_eq_some_iff.1 h
    obtain ⟨rfl, rfl⟩ : '\\' :: d :: b = before ∧ a = after := by simpa using he
    obtain ⟨hb, rfl⟩ := ih hcut
    exact ⟨.escape hb, rfl⟩
  | case4 c t hc hp =>
    obtain ⟨rfl, rfl⟩ : [] = before ∧ (c :: t).drop (first :: others).length = after := by
      simpa using h
    obtain ⟨u, hu⟩ := List.isPrefixOf_iff_prefix.1 hp
    refine ⟨.nil, ?_⟩
    rw [← hu, List.drop_left, List.nil_append]
  | case5 c t hc hp ih =>
    obtain ⟨⟨b, a⟩, hcut, he⟩ := Option.map_eq_some_iff.1 h
    obtain ⟨rfl, rfl⟩ : c :: b = before ∧ a = after := by simpa using he
    obtain ⟨hb, rfl⟩ := ih hcut
    refine ⟨.plain hc (fun h => hp (List.isPrefixOf_iff_prefix.2 ?_)) hb, rfl⟩
    exact h.trans ⟨a, by simp⟩

/-- Where a text has been cut its units go on behind. -/
lemma unescape_append {t : Text} (ht : Precedes ending t) (u : Text) :
    unescape (t ++ u) = unescape t ++ unescape u := by
  induction ht with
  | nil => rfl
  | plain hc _ _ ih => rw [List.cons_append, unescape_plain hc, unescape_plain hc, ih]; rfl
  | escape _ ih =>
    rw [List.cons_append, List.cons_append, unescape_escape, unescape_escape, ih, List.append_assoc]

/-- A terminator is looked for by its first character.  If the others do not follow, the search goes
on behind that character. -/
lemma cutUnescaped?_cons (hf : first ≠ '\\') (t : Text) :
    cutUnescaped? (first :: others) t =
      (cutUnescaped? [first] t).bind fun (before, after) =>
        if others <+: after then some (before, after.drop others.length)
        else (cutUnescaped? (first :: others) after).map fun (b, a) =>
          (before ++ first :: b, a) := by
  -- By recursion along the search for the first character: where it finds one, the whole terminator
  -- begins there or is looked for behind it.
  fun_induction cutUnescaped? [first] t with
  | case1 => rfl
  | case2 => rfl
  | case3 d t ih =>
    rw [cutUnescaped?_escape, ih]
    cases cutUnescaped? [first] t with
    | none => rfl
    | some cut =>
      by_cases h : others <+: cut.2 <;> simp [h, Function.comp_def]
  | case4 c t hc hp =>
    obtain rfl : first = c := by simpa [List.isPrefixOf] using hp
    rw [cutUnescaped?_plain _ hf]
    by_cases h : others <+: t
    · simp [h]
    · simp [h]
  | case5 c t hc hp ih =>
    have hne : ¬ first = c := by simpa [List.isPrefixOf] using hp
    rw [cutUnescaped?_plain _ hc, if_neg (by simp [hne]), ih]
    cases cutUnescaped? [first] t with
    | none => rfl
    | some cut =>
      by_cases h : others <+: cut.2 <;> simp [h, Function.comp_def]

end Cut

/-! ## One character -/

variable {i j : Input} {closing : Char}

/-- What reading up to a character makes of an input: it takes the pending text up to the first
unescaped occurrence, and all of the text if there is none. -/
def takenTo (closing : Char) (i : Input) : (Text × Bool) × Input :=
  match cutUnescaped? [closing] i.pending with
  | some (before, _) => ((unescape before, true), i.drop (before.length + 1))
  | none => ((unescape i.pending, false), i.leaving [])

lemma takenTo_of_nil (hi : i.Ready) (hp : i.pending = []) :
    takenTo closing i = (([], false), i.drop 1) := by
  have hlen : i.pushback.length ≤ 1 := Nat.le_trans (length_pushback_le i) (by simp [hp])
  rw [takenTo, hp, drop_eq_leaving hi hlen, hp]
  rfl

lemma takenTo_of_backslash (hi : i.Ready) (hp : i.pending = ['\\']) :
    takenTo closing i = (([], false), i.drop 2) := by
  have hlen : i.pushback.length ≤ 2 := Nat.le_trans (length_pushback_le i) (by simp [hp])
  rw [takenTo, hp, drop_eq_leaving hi hlen, hp]
  rfl

lemma takenTo_of_closing {t : Text} (hc : closing ≠ '\\') (hp : i.pending = closing :: t) :
    takenTo closing i = (([], true), i.drop 1) := by
  rw [takenTo, hp, cutUnescaped?_plain _ hc, if_pos ⟨t, rfl⟩]
  rfl

lemma takenTo_of_escape {c : Char} {t : Text} (hp : i.pending = '\\' :: c :: t) :
    takenTo closing i =
      ((escaped c ++ (takenTo closing (i.drop 2)).1.1, (takenTo closing (i.drop 2)).1.2),
        (takenTo closing (i.drop 2)).2) := by
  rw [takenTo, takenTo, hp, cutUnescaped?_escape, pending_drop, hp, List.drop_succ_cons,
    List.drop_succ_cons, List.drop_zero]
  cases cutUnescaped? [closing] t with
  | none => rfl
  | some cut => simp [unescape_escape, Nat.add_comm, Nat.add_left_comm]

lemma takenTo_of_plain {c : Char} {t : Text} (hc : c ≠ '\\') (hne : c ≠ closing)
    (hp : i.pending = c :: t) :
    takenTo closing i =
      ((c :: (takenTo closing (i.drop 1)).1.1, (takenTo closing (i.drop 1)).1.2),
        (takenTo closing (i.drop 1)).2) := by
  rw [takenTo, takenTo, hp, cutUnescaped?_plain _ hc, if_neg (by simp [hne.symm]), pending_drop, hp,
    List.drop_succ_cons, List.drop_zero]
  cases cutUnescaped? [closing] t with
  | none => simp [unescape_plain hc]
  | some cut => simp [unescape_plain hc, Nat.add_comm, Nat.add_left_comm]

/-- Reading up to a character always comes to something, whether the character is there or not. -/
lemma Ready.readTo_eq (hi : i.Ready) (hc : closing ≠ '\\') :
    i.readTo closing = .ok (takenTo closing i).1 (takenTo closing i).2 := by
  -- Cases 1, 4, 7 and 9 are those in which a read fails, which it cannot on a ready input.
  fun_induction readTo closing i with
  | case1 i e j h => simp [hi.next_eq] at h
  | case2 i j h =>
    obtain ⟨hp, rfl⟩ := hi.of_next_none h
    rw [takenTo_of_nil hi hp]
  | case3 i j h =>
    obtain ⟨t, hp, rfl⟩ := hi.of_next_some h
    rw [takenTo_of_closing hc hp]
  | case4 i j e k hk h =>
    obtain ⟨t, hp, rfl⟩ := hi.of_next_some h
    simp [(hi.drop 1).next_eq] at hk
  | case5 i j k hk h =>
    obtain ⟨t, hp, rfl⟩ := hi.of_next_some h
    obtain ⟨hnil, rfl⟩ := (hi.drop 1).of_next_none hk
    obtain rfl : t = [] := by simpa [hp] using hnil
    rw [takenTo_of_backslash hi hp, drop_drop]
  | case6 i j d k hk t found l hl h hb ih =>
    obtain ⟨s, hp, rfl⟩ := hi.of_next_some h
    obtain ⟨r, hr, rfl⟩ := (hi.drop 1).of_next_some hk
    obtain rfl : s = d :: r := by simpa [hp] using hr
    rw [ih ((hi.drop 1).drop 1), drop_drop] at hl
    rw [takenTo_of_escape hp]
    simp only [EStateM.Result.ok.injEq] at hl
    rw [hl.1, hl.2]
  | case7 i j d k hk e l hl h hb ih =>
    obtain ⟨s, hp, rfl⟩ := hi.of_next_some h
    obtain ⟨r, hr, rfl⟩ := (hi.drop 1).of_next_some hk
    rw [ih ((hi.drop 1).drop 1)] at hl
    cases hl
  | case8 i c j h hne hb t found k hk ih =>
    obtain ⟨s, hp, rfl⟩ := hi.of_next_some h
    rw [ih (hi.drop 1)] at hk
    rw [takenTo_of_plain hb hne hp]
    simp only [EStateM.Result.ok.injEq] at hk
    rw [hk.1, hk.2]
  | case9 i c j h hne hb e k hk ih =>
    obtain ⟨s, hp, rfl⟩ := hi.of_next_some h
    rw [ih (hi.drop 1)] at hk
    cases hk

lemma Ready.of_readTo_found {t : Text} (hi : i.Ready) (hc : closing ≠ '\\')
    (h : i.readTo closing = .ok (t, true) j) :
    ∃ before after, cutUnescaped? [closing] i.pending = some (before, after) ∧
      unescape before = t ∧ i.drop (before.length + 1) = j := by
  rw [hi.readTo_eq hc, takenTo] at h
  cases hcut : cutUnescaped? [closing] i.pending with
  | none => simp [hcut] at h
  | some cut => exact ⟨cut.1, cut.2, rfl, by simpa [hcut] using h⟩

lemma Ready.of_readTo_missing {t : Text} (hi : i.Ready) (hc : closing ≠ '\\')
    (h : i.readTo closing = .ok (t, false) j) :
    cutUnescaped? [closing] i.pending = none ∧ unescape i.pending = t ∧ i.leaving [] = j := by
  rw [hi.readTo_eq hc, takenTo] at h
  cases hcut : cutUnescaped? [closing] i.pending with
  | none => exact ⟨rfl, by simpa [hcut] using h⟩
  | some cut => simp [hcut] at h

lemma backslash_ne_of_isQuote {c : Char} (hc : Text.isQuote c = true) : c ≠ '\\' := by
  rintro rfl
  cases hc

/-- A closed value is a text before the closing character, its escapes replaced. -/
lemma Ready.readClosed_iff {name value t : Text} (hi : i.Ready) (hc : closing ≠ '\\') :
    (i.leaving t).readClosed name closing = .ok value j ↔
      ∃ before after, Precedes [closing] before ∧ t = before ++ closing :: after ∧
        value = unescape before ∧ j = i.leaving after := by
  refine ⟨fun h => ?_, ?_⟩
  · unfold readClosed at h
    split at h
    · rename_i hr
      obtain ⟨before, after, hcut, rfl, rfl⟩ := (hi.leaving t).of_readTo_found hc hr
      obtain ⟨hb, ht⟩ := of_cutUnescaped? hcut
      rw [pending_leaving] at ht
      cases h
      exact ⟨before, after, hb, ht, rfl, by simp [ht]⟩
    · cases h
    · cases h
  · rintro ⟨before, after, hb, rfl, rfl, rfl⟩
    have hcut : cutUnescaped? [closing] (before ++ closing :: after) = some (before, after) :=
      cutUnescaped?_append hc hb after
    rw [readClosed, (hi.leaving _).readTo_eq hc, takenTo, pending_leaving, hcut]
    simp

/-! ## Several characters -/

/-- Characters that are pending are read. -/
lemma Ready.readExactly_of_startsWith (hi : i.Ready) {expected : Text}
    (h : expected <+: i.pending) : readExactly expected i = .ok true (i.drop expected.length) := by
  induction expected generalizing i with
  | nil => rw [readExactly, List.length_nil, drop_zero]
  | cons c expected ih =>
    obtain ⟨t, ht⟩ := h
    have hrest : expected <+: (i.drop 1).pending := ⟨t, by simp [← ht]⟩
    rw [readExactly, hi.next_cons ht.symm]
    simp only [if_pos, ih (hi.drop 1) hrest, drop_drop, List.length_cons, Nat.add_comm 1]

/-- Characters that are not pending are not read: what was read of them is pushed back. -/
lemma Ready.readExactly_of_not_startsWith (hi : i.Ready) {expected : Text}
    (h : ¬ expected <+: i.pending) :
    ∃ j, readExactly expected i = .ok false j ∧ j.Ready ∧ j.pending = i.pending ∧
      j.pushback.length ≤ max i.pushback.length expected.length ∧
      ∀ t, j.leaving t = i.leaving t := by
  induction expected generalizing i with
  | nil => exact absurd List.nil_prefix h
  | cons c expected ih =>
    rw [readExactly, hi.next_eq]
    by_cases hc : i.pending.head? = some c
    · obtain ⟨t, ht⟩ := List.head?_eq_some_iff.1 hc
      have hrest : ¬ expected <+: (i.drop 1).pending := by
        simpa [ht] using h
      obtain ⟨j, hj, hready, hp, hlen, hleave⟩ := ih (hi.drop 1) hrest
      refine ⟨j.unread c, by simp only [hc, if_pos, hj], hready.unread c, ?_, ?_, hleave⟩
      · simp [hp, ht]
      · simp only [Input.unread, List.length_cons, length_pushback_drop] at hlen ⊢
        omega
    · refine ⟨(i.drop 1).unreadOption i.pending.head?, by simp only [if_neg hc],
        (hi.drop 1).unreadOption _, pending_unreadOption_drop i, ?_, fun t => by simp⟩
      have hlen := length_pushback_unreadOption_drop_le i.pending.head? i
      rw [List.length_cons]
      omega

/-- Reading through a terminator takes the pending text up to its first unescaped occurrence, if no
more than its length has been pushed back; without it there is no end. -/
lemma Ready.readThrough_eq {first : Char} {others : Text} (hi : i.Ready) (hf : first ≠ '\\')
    (hlen : i.pushback.length ≤ others.length + 1) (before : Text) :
    readThrough first others (plainReader first) before i =
      match cutUnescaped? (first :: others) i.pending with
      | some (b, after) => .ok (before ++ unescape b ++ first :: others) (i.leaving after)
      | none => .error (.missingTerminator (first :: others) (before ++ unescape i.pending))
        (i.leaving []) := by
  -- The first character is not there (case 2), or the others follow it (case 4), or they do not and
  -- the search goes on (case 5).  In the other cases a read fails, as none does on a ready input.
  fun_induction readThrough first others (plainReader first) before i with
  | case1 before i e j h =>
    change i.readTo first = _ at h
    rw [hi.readTo_eq hf] at h
    cases h
  | case2 before i t j h =>
    obtain ⟨hcut, rfl, rfl⟩ := hi.of_readTo_missing hf h
    rw [cutUnescaped?_cons hf, hcut]
    rfl
  | case3 before i t j h e k hk =>
    obtain ⟨b, after, hcut, rfl, rfl⟩ := hi.of_readTo_found hf h
    by_cases hp : others <+: (i.drop (b.length + 1)).pending
    · rw [(hi.drop _).readExactly_of_startsWith hp] at hk
      cases hk
    · obtain ⟨l, hl, -⟩ := (hi.drop _).readExactly_of_not_startsWith hp
      cases hl.symm.trans hk
  | case4 before i t j h k hk =>
    obtain ⟨b, after, hcut, rfl, rfl⟩ := hi.of_readTo_found hf h
    obtain ⟨-, hp⟩ := of_cutUnescaped? hcut
    have hafter : (i.drop (b.length + 1)).pending = after := by simp [hp]
    by_cases hothers : others <+: after
    · rw [(hi.drop _).readExactly_of_startsWith (hafter ▸ hothers)] at hk
      obtain rfl : (i.drop (b.length + 1)).drop others.length = k := by simpa using hk
      have hrest : (i.drop (b.length + 1)).drop others.length =
          i.leaving (after.drop others.length) := by
        rw [drop_eq_leaving (hi.drop _) (by rw [length_pushback_drop]; omega), hafter, leaving_drop]
      rw [cutUnescaped?_cons hf, hcut, hrest]
      simp only [Option.bind_some, if_pos hothers]
    · obtain ⟨l, hl, -⟩ := (hi.drop _).readExactly_of_not_startsWith (hafter ▸ hothers)
      cases hl.symm.trans hk
  | case5 before i t j h k hk ih =>
    obtain ⟨b, after, hcut, rfl, rfl⟩ := hi.of_readTo_found hf h
    obtain ⟨hb, hp⟩ := of_cutUnescaped? hcut
    have hafter : (i.drop (b.length + 1)).pending = after := by simp [hp]
    by_cases hothers : others <+: after
    · rw [(hi.drop _).readExactly_of_startsWith (hafter ▸ hothers)] at hk
      cases hk
    · obtain ⟨l, hl, hready, hpending, hback, hleave⟩ :=
        (hi.drop _).readExactly_of_not_startsWith (hafter ▸ hothers)
      obtain rfl : l = k := by simpa using hl.symm.trans hk
      -- No more than `others` is pushed back again, so the search goes on under the same bound.
      rw [length_pushback_drop] at hback
      have hjoin : ∀ t, unescape (b ++ first :: t) = unescape b ++ first :: unescape t := by
        intro t
        rw [unescape_append hb, unescape_plain hf]
      rw [ih hready (by omega), hpending, hafter, cutUnescaped?_cons hf i.pending, hcut]
      simp only [Option.bind_some, if_neg hothers, hleave, leaving_drop]
      cases cutUnescaped? (first :: others) after with
      | none => simp [hp, hjoin]
      | some cut => simp [hjoin]

end Stencil.Input
