import Mathlib.Order.Bounds.Defs
import Stencil.Proofs.Template.Marks
import Stencil.Proofs.Template.Vocabulary

/-!
# Where the matching mark stands

The search for the mark that closes a token goes through the text once and counts the marks that are
open.  `Scans` is this search as a loop over positions: at each position it takes an opening mark, a
closing mark or a single character, and goes on behind it.  As marks have at least one character,
every step leaves less of the text, and the loop ends (`exists_scans`).

For marks of a single character the count is right: what is found is the closing mark up to which
the text is balanced (`matchingIndex?_eq_some_iff`).  The main statement is `matchingIndex?_least`.
That the position is determined needs no argument of its own, for it is the result of a function.
-/

namespace Stencil.Template

/-! ## Positions -/

/-- The position of the closing mark that matches, where the text is searched from position `i` on
and `depth` opening marks are waiting for theirs besides. -/
def matchingFrom? (opening closing t : Text) (depth i : Nat) : Option Nat :=
  (matchingEnd opening closing depth (t.drop i)).map fun (before, _) => i + before.length

/-- The position of the closing mark that matches, where the text is searched from position `start`
on. -/
def matchingIndex? (opening closing t : Text) (start : Nat) : Option Nat :=
  matchingFrom? opening closing t 0 start

/-- The search from a position on as a loop: after `steps` rounds it ends with the result `found`.
Opening marks are looked for first. -/
inductive Scans (opening closing t : Text) :
    (steps depth i : Nat) → (found : Option Nat) → Prop where
  | over {depth i : Nat} (hi : t.length ≤ i) : Scans opening closing t 0 depth i none
  | found {i : Nat} (hi : i < t.length) (ho : ¬ opening <+: t.drop i)
      (hc : closing <+: t.drop i) : Scans opening closing t 0 0 i (some i)
  | opened {steps depth i : Nat} {found : Option Nat} (hi : i < t.length)
      (ho : opening <+: t.drop i)
      (hnext : Scans opening closing t steps (depth + 1) (i + opening.length) found) :
      Scans opening closing t (steps + 1) depth i found
  | closed {steps depth i : Nat} {found : Option Nat} (hi : i < t.length)
      (ho : ¬ opening <+: t.drop i) (hc : closing <+: t.drop i)
      (hnext : Scans opening closing t steps depth (i + closing.length) found) :
      Scans opening closing t (steps + 1) (depth + 1) i found
  | plain {steps depth i : Nat} {found : Option Nat} (hi : i < t.length)
      (ho : ¬ opening <+: t.drop i) (hc : ¬ closing <+: t.drop i)
      (hnext : Scans opening closing t steps depth (i + 1) found) :
      Scans opening closing t (steps + 1) depth i found

/-- The closing mark at `i` is the one up to which the text from `start` on is balanced. -/
structure ClosesAt (opening closing : Char) (t : Text) (start i : Nat) : Prop where
  start_le : start ≤ i
  mark : t[i]? = some closing
  balanced : Balanced opening closing ((t.drop start).take (i - start))

/-! ## The loop -/

section Loop

variable {opening closing t : Text} {depth i : Nat}

variable (opening closing) in
/-- What the search passes over moves the position. -/
lemma map_skip {c : Char} {s : Text} (hs : t.drop i = c :: s) {mark : Text} (hne : mark ≠ [])
    (hmark : mark <+: t.drop i) (depth : Nat) :
    ((matchingEnd opening closing depth (s.drop (mark.length - 1))).map
        fun (before, after) => (c :: s.take (mark.length - 1) ++ before, after)).map
          (fun (before, _) => i + before.length) =
      matchingFrom? opening closing t depth (i + mark.length) := by
  have hpos := List.length_pos_of_ne_nil hne
  have hle := hmark.length_le
  rw [hs, List.length_cons] at hle
  have hdrop : t.drop (i + mark.length) = s.drop (mark.length - 1) := by
    rw [← List.drop_drop, hs]
    obtain ⟨n, hn⟩ := Nat.exists_eq_succ_of_ne_zero hpos.ne'
    rw [hn]
    rfl
  rw [matchingFrom?, hdrop, Option.map_map]
  refine congrArg (Option.map · _) (funext fun (before, after) => ?_)
  simp only [Function.comp_apply, List.length_append, List.length_cons, List.length_take]
  omega

lemma matchingFrom?_over (hi : t.length ≤ i) : matchingFrom? opening closing t depth i = none := by
  rw [matchingFrom?, List.drop_eq_nil_of_le hi, matchingEnd]
  rfl

lemma exists_drop_eq_cons (hi : i < t.length) : ∃ c s, t.drop i = c :: s :=
  ⟨_, _, List.drop_eq_getElem_cons hi⟩

lemma matchingFrom?_opened (hi : i < t.length) (hopening : opening ≠ [])
    (ho : opening <+: t.drop i) :
    matchingFrom? opening closing t depth i =
      matchingFrom? opening closing t (depth + 1) (i + opening.length) := by
  obtain ⟨c, s, hs⟩ := exists_drop_eq_cons hi
  rw [← map_skip opening closing hs hopening ho, matchingFrom?, hs, matchingEnd,
    if_pos (List.isPrefixOf_iff_prefix.2 (hs ▸ ho))]

lemma matchingFrom?_found (hi : i < t.length) (ho : ¬ opening <+: t.drop i)
    (hc : closing <+: t.drop i) : matchingFrom? opening closing t 0 i = some i := by
  obtain ⟨c, s, hs⟩ := exists_drop_eq_cons hi
  rw [matchingFrom?, hs, matchingEnd, if_neg (mt List.isPrefixOf_iff_prefix.1 (hs ▸ ho)),
    if_pos (List.isPrefixOf_iff_prefix.2 (hs ▸ hc)), if_pos (.inl rfl)]
  rfl

lemma matchingFrom?_closed (hi : i < t.length) (hclosing : closing ≠ [])
    (ho : ¬ opening <+: t.drop i) (hc : closing <+: t.drop i) :
    matchingFrom? opening closing t (depth + 1) i =
      matchingFrom? opening closing t depth (i + closing.length) := by
  obtain ⟨c, s, hs⟩ := exists_drop_eq_cons hi
  rw [← map_skip opening closing hs hclosing hc, matchingFrom?, hs, matchingEnd,
    if_neg (mt List.isPrefixOf_iff_prefix.1 (hs ▸ ho)),
    if_pos (List.isPrefixOf_iff_prefix.2 (hs ▸ hc)),
    if_neg (not_or.2 ⟨Nat.succ_ne_zero depth, hclosing⟩), Nat.add_sub_cancel]

lemma matchingFrom?_plain (hi : i < t.length) (ho : ¬ opening <+: t.drop i)
    (hc : ¬ closing <+: t.drop i) :
    matchingFrom? opening closing t depth i =
      matchingFrom? opening closing t depth (i + 1) := by
  obtain ⟨c, s, hs⟩ := exists_drop_eq_cons hi
  have hskip := map_skip opening closing hs (List.cons_ne_nil c []) (hs ▸ ⟨s, rfl⟩) depth
  rw [List.length_singleton] at hskip
  rw [← hskip, matchingFrom?, hs, matchingEnd,
    if_neg (mt List.isPrefixOf_iff_prefix.1 (hs ▸ ho)),
    if_neg (mt List.isPrefixOf_iff_prefix.1 (hs ▸ hc))]

/-- The loop ends with the result of the search, after no more rounds than there are characters from
the position on. -/
lemma exists_scans (hopening : opening ≠ []) (hclosing : closing ≠ []) (t : Text) (depth i : Nat) :
    ∃ steps ≤ t.length - i,
      Scans opening closing t steps depth i (matchingFrom? opening closing t depth i) := by
  have hopened := List.length_pos_of_ne_nil hopening
  have hclosed := List.length_pos_of_ne_nil hclosing
  -- What is left of the text is the measure, and it gets shorter by the length of a mark.
  induction hleft : t.length - i using Nat.strongRecOn generalizing depth i with
  | _ left ih =>
    by_cases hi : i < t.length
    · by_cases ho : opening <+: t.drop i
      · obtain ⟨steps, hsteps, hnext⟩ :=
          ih (t.length - (i + opening.length)) (by omega) (depth + 1) _ rfl
        rw [matchingFrom?_opened hi hopening ho]
        exact ⟨steps + 1, by omega, .opened hi ho hnext⟩
      · by_cases hc : closing <+: t.drop i
        · cases depth with
          | zero =>
            rw [matchingFrom?_found hi ho hc]
            exact ⟨0, Nat.zero_le _, .found hi ho hc⟩
          | succ depth =>
            obtain ⟨steps, hsteps, hnext⟩ :=
              ih (t.length - (i + closing.length)) (by omega) depth _ rfl
            rw [matchingFrom?_closed hi hclosing ho hc]
            exact ⟨steps + 1, by omega, .closed hi ho hc hnext⟩
        · obtain ⟨steps, hsteps, hnext⟩ := ih (t.length - (i + 1)) (by omega) depth _ rfl
          rw [matchingFrom?_plain hi ho hc]
          exact ⟨steps + 1, by omega, .plain hi ho hc hnext⟩
    · rw [matchingFrom?_over (Nat.not_lt.1 hi)]
      exact ⟨0, Nat.zero_le _, .over (Nat.not_lt.1 hi)⟩

/-- What is found is a place of the closing mark. -/
lemma prefix_drop_of_matchingIndex? {start : Nat}
    (h : matchingIndex? opening closing t start = some i) :
    start ≤ i ∧ closing <+: t.drop i := by
  obtain ⟨⟨before, after⟩, hend, rfl⟩ := Option.map_eq_some_iff.1 h
  refine ⟨Nat.le_add_right _ _, after, ?_⟩
  rw [← List.drop_drop, ← append_of_matchingEnd hend, List.append_assoc, List.drop_left]

end Loop

/-! ## Marks of one character -/

section Balance

variable {o e : Char}

/-- A text that closes a number of marks which are open before it, and besides is balanced. -/
def Settles (o e : Char) (depth : Nat) (t : Text) : Prop :=
  t.count e = depth + t.count o ∧ ∀ u, u <+: t → u.count e ≤ depth + u.count o

lemma settles_nil : Settles o e 0 [] := by
  refine ⟨rfl, fun u hu => ?_⟩
  rw [List.prefix_nil.1 hu]
  exact Nat.le_refl _

/-- A character in front is open or closed as well. -/
lemma Settles.cons {depth depth' : Nat} {t : Text} (h : Settles o e depth' t) {c : Char}
    (hc : depth + [c].count o = depth' + [c].count e) : Settles o e depth (c :: t) := by
  obtain ⟨hcount, hstart⟩ := h
  rw [← List.singleton_append]
  refine ⟨?_, fun u hu => ?_⟩
  · rw [List.count_append, List.count_append]
    omega
  · obtain rfl | ⟨v, rfl, hv⟩ := List.prefix_cons_iff.1 hu
    · exact Nat.zero_le _
    · have hle := hstart v hv
      rw [← List.singleton_append, List.count_append, List.count_append]
      omega

/-- What stands before the mark that is found closes everything that is open. -/
lemma settles_of_matchingEnd (hoe : o ≠ e) {depth : Nat} {t before after : Text}
    (h : matchingEnd [o] [e] depth t = some (before, after)) : Settles o e depth before := by
  induction t generalizing depth before with
  | nil =>
    rw [matchingEnd] at h
    cases h
  | cons c t ih =>
    -- However the search goes on, what it finds behind the character settles the depth that is open
    -- there.
    have hnext : ∀ {depth' : Nat}, depth + [c].count o = depth' + [c].count e →
        (matchingEnd [o] [e] depth' t).map (fun (b, a) => (c :: b, a)) = some (before, after) →
        Settles o e depth before := by
      intro depth' hdepth hmap
      obtain ⟨⟨b, a⟩, hend, heq⟩ := Option.map_eq_some_iff.1 hmap
      obtain ⟨rfl, rfl⟩ := Prod.mk.inj heq
      exact (ih hend).cons hdepth
    rw [matchingEnd_cons] at h
    split at h
    · rename_i hc
      exact hnext (by simp [hc, hoe]) h
    · rename_i ho
      split at h
      · rename_i hc
        split at h
        · rename_i hdepth
          obtain ⟨rfl, rfl⟩ := Prod.mk.inj (Option.some.inj h)
          rw [hdepth]
          exact settles_nil
        · rename_i hdepth
          have hone : depth = depth - 1 + 1 := by omega
          exact hnext (by simpa [hc, Ne.symm hoe] using hone) h
      · rename_i he
        exact hnext (by simp [ho, he]) h

lemma balanced_of_matchingEnd (hoe : o ≠ e) {t before after : Text}
    (h : matchingEnd [o] [e] 0 t = some (before, after)) : Balanced o e before := by
  obtain ⟨hcount, hstart⟩ := settles_of_matchingEnd hoe h
  rw [Nat.zero_add] at hcount
  refine ⟨hcount.symm, fun u hu => ?_⟩
  have hle := hstart u hu
  rwa [Nat.zero_add] at hle

/-- The mark that is found is the one up to which the text is balanced. -/
lemma matchingIndex?_eq_some_iff (hoe : o ≠ e) {t : Text} {start i : Nat} :
    matchingIndex? [o] [e] t start = some i ↔ ClosesAt o e t start i := by
  constructor
  · intro h
    obtain ⟨⟨before, after⟩, hend, rfl⟩ := Option.map_eq_some_iff.1 h
    have htext : t.drop start = before ++ e :: after := by
      simpa using (append_of_matchingEnd hend).symm
    refine ⟨Nat.le_add_right _ _, ?_, ?_⟩
    · rw [← List.getElem?_drop, htext, List.getElem?_append_right (Nat.le_refl _), Nat.sub_self]
      rfl
    · rw [Nat.add_sub_cancel_left, htext, List.take_left]
      exact balanced_of_matchingEnd hoe hend
  · rintro ⟨hstart, hmark, hbalanced⟩
    obtain ⟨k, rfl⟩ := Nat.exists_eq_add_of_le hstart
    rw [Nat.add_sub_cancel_left] at hbalanced
    rw [← List.getElem?_drop] at hmark
    obtain ⟨hk, hget⟩ := List.getElem?_eq_some_iff.1 hmark
    have htext : t.drop start = (t.drop start).take k ++ e :: (t.drop start).drop (k + 1) := by
      rw [← hget, ← List.drop_eq_getElem_cons hk, List.take_append_drop]
    rw [matchingIndex?, matchingFrom?, htext, matchingEnd_balanced hoe hbalanced]
    simp only [Option.map_some, List.length_take_of_le hk.le]

end Balance

/-- **The mark that matches is the first one up to which the text is balanced.**  For two different
marks of one character, the search from a position on finds the least position of a closing mark
with a balanced text in front of it, and nothing if there is none.  Whatever marks of one or more
characters there are, the search is a loop that ends after no more rounds than there are characters
to go through, and what it finds is a place of the closing mark. -/
theorem matchingIndex?_least (t : Text) (start : Nat) :
    (∀ o e : Char, o ≠ e →
      (∀ i, matchingIndex? [o] [e] t start = some i ↔
        IsLeast {i | ClosesAt o e t start i} i) ∧
      (matchingIndex? [o] [e] t start = none ↔ ∀ i, ¬ ClosesAt o e t start i)) ∧
    (∀ opening closing : Text, opening ≠ [] → closing ≠ [] →
      (∃ steps ≤ t.length - start,
        Scans opening closing t steps 0 start (matchingIndex? opening closing t start)) ∧
      ∀ i, matchingIndex? opening closing t start = some i →
        start ≤ i ∧ closing <+: t.drop i) := by
  refine ⟨fun o e hoe => ⟨fun i => ⟨fun h => ⟨?_, fun j hj => ?_⟩, fun h => ?_⟩, ?_⟩,
    fun opening closing hopening hclosing => ⟨?_, fun i => prefix_drop_of_matchingIndex?⟩⟩
  · exact (matchingIndex?_eq_some_iff hoe).1 h
  · have hfound := (matchingIndex?_eq_some_iff hoe).2 hj
    rw [h] at hfound
    exact (Option.some.inj hfound).le
  · exact (matchingIndex?_eq_some_iff hoe).2 h.1
  · rw [Option.eq_none_iff_forall_ne_some]
    exact forall_congr' fun i => not_congr (matchingIndex?_eq_some_iff hoe)
  · exact exists_scans hopening hclosing t 0 start

/-- From the second character of `a{b}}c}` on the mark at position 4 matches.  With `<<` and `>>`
the second closing mark of `<<a>>>>` does. -/
theorem matchingIndex?_least_nested :
    '{' ≠ '}' ∧ "<<".toList ≠ [] ∧ ">>".toList ≠ [] ∧
      IsLeast {i | ClosesAt '{' '}' "a\x7bb\x7d\x7dc\x7d".toList 1 i} 4 ∧
      matchingIndex? "<<".toList ">>".toList "<<a>>>>".toList 0 = some 5 ∧
      (∃ steps ≤ 7, Scans "<<".toList ">>".toList "<<a>>>>".toList steps 0 0 (some 5)) ∧
      ">>".toList <+: "<<a>>>>".toList.drop 5 := by
  obtain ⟨hsingle, -⟩ := matchingIndex?_least "a\x7bb\x7d\x7dc\x7d".toList 1
  obtain ⟨-, hseveral⟩ := matchingIndex?_least "<<a>>>>".toList 0
  have hne : '{' ≠ '}' := by decide
  have hopening : "<<".toList ≠ [] := by decide
  have hclosing : ">>".toList ≠ [] := by decide
  have hcloses : ClosesAt '{' '}' "a\x7bb\x7d\x7dc\x7d".toList 1 4 := ⟨by decide, rfl, by decide⟩
  have hfound : matchingIndex? "<<".toList ">>".toList "<<a>>>>".toList 0 = some 5 := by
    simp [matchingIndex?, matchingFrom?, matchingEnd]
  obtain ⟨hscans, hplace⟩ := hseveral _ _ hopening hclosing
  rw [hfound] at hscans
  exact ⟨hne, hopening, hclosing,
    ((hsingle '{' '}' hne).1 4).1 ((matchingIndex?_eq_some_iff hne).2 hcloses), hfound, hscans,
    (hplace 5 hfound).2⟩

end Stencil.Template
