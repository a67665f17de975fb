import Mathlib.Data.List.Infix
import Stencil.Proofs.Input.Terminator

/-!
# The first occurrence of a terminator

A terminator of several characters is looked for by its first character, and what follows when the
others do not is pushed back and searched again.  A terminator that overlaps itself is found all the
same: in a text without backslashes reading up to it takes the shortest start of the text that ends
with the terminator (`Shortest`), whatever the terminator is.

The search itself is known from `Stencil.Proofs.Input.Terminator`, where it comes to a cut at the
first unescaped occurrence; here a cut is said to be the shortest start (`shortest_of_cut`), and
`readUntil_terminator` puts the two together.  The one terminator that the cut says nothing of
starts with a backslash, and does not occur.
-/

namespace Stencil.Input

/-! ## Shortest starts -/

/-- The shortest start of a text that ends with the terminator. -/
structure Shortest (ending t p : Text) : Prop where
  initial : p <+: t
  ends : ending <:+ p
  le_length : ∀ q, q <+: t → ending <:+ q → p.length ≤ q.length

instance decidableShortest (ending t p : Text) : Decidable (Shortest ending t p) :=
  decidable_of_iff
    (p <+: t ∧ ending <:+ p ∧ ∀ q ∈ t.inits, ending <:+ q → p.length ≤ q.length)
    ⟨fun ⟨hp, he, hq⟩ => ⟨hp, he, fun q h => hq q ((List.mem_inits q t).2 h)⟩,
      fun h => ⟨h.initial, h.ends, fun q hq => h.le_length q ((List.mem_inits q t).1 hq)⟩⟩

section Shortest

variable {first : Char} {others ending t before after p q : Text}

lemma Shortest.unique (hp : Shortest ending t p) (hq : Shortest ending t q) : p = q := by
  have hle := hp.le_length q hq.initial hq.ends
  have hge := hq.le_length p hp.initial hp.ends
  exact (List.prefix_of_prefix_length_le hp.initial hq.initial hle).eq_of_length_le hge

/-- A terminator has a shortest start only where it occurs. -/
lemma Shortest.isInfix (hp : Shortest ending t p) : ending <:+: t :=
  hp.ends.isInfix.trans hp.initial.isInfix

/-- Without backslashes a text is cut behind no start that ends with the terminator. -/
lemma length_le_of_cut (ht : '\\' ∉ t)
    (hcut : cutUnescaped? (first :: others) t = some (before, after)) (hq : q <+: t)
    (he : first :: others <:+ q) :
    (before ++ first :: others).length ≤ q.length := by
  induction t generalizing before q with
  | nil => cases hcut
  | cons c t ih =>
    obtain ⟨hc, htail⟩ : '\\' ≠ c ∧ '\\' ∉ t := by simpa using ht
    rw [cutUnescaped?_plain _ hc.symm] at hcut
    split at hcut
    · obtain ⟨rfl, -⟩ : [] = before ∧ _ := by simpa using hcut
      exact he.length_le
    · rename_i hstart
      obtain ⟨⟨b, a⟩, hcut', hb⟩ := Option.map_eq_some_iff.1 hcut
      obtain ⟨rfl, rfl⟩ : c :: b = before ∧ a = after := by simpa using hb
      cases q with
      | nil => cases List.suffix_nil.1 he
      | cons d q =>
        -- A start that is the terminator itself would have been found at once.
        rcases List.suffix_cons_iff.1 he with heq | he
        · exact absurd (heq ▸ hq) hstart
        · exact Nat.succ_le_succ (ih htail hcut' (List.cons_prefix_cons.1 hq).2 he)

lemma shortest_of_cut (ht : '\\' ∉ t)
    (hcut : cutUnescaped? (first :: others) t = some (before, after)) :
    Shortest (first :: others) t (before ++ first :: others) where
  initial := ⟨after, by rw [(of_cutUnescaped? hcut).2, List.append_assoc]⟩
  ends := List.suffix_append _ _
  le_length := fun _ => length_le_of_cut ht hcut

/-- Without backslashes a text is cut wherever the terminator occurs. -/
lemma cutUnescaped?_eq_none_iff (ht : '\\' ∉ t) :
    cutUnescaped? (first :: others) t = none ↔ ¬ first :: others <:+: t := by
  induction t with
  | nil => simp [cutUnescaped?]
  | cons c t ih =>
    obtain ⟨hc, ht⟩ : '\\' ≠ c ∧ '\\' ∉ t := by simpa using ht
    rw [cutUnescaped?_plain _ hc.symm, List.infix_cons_iff]
    by_cases hstart : first :: others <+: c :: t
    · simp [hstart]
    · simp [hstart, ih ht]

end Shortest

/-! ## Reading -/

section Reading

variable {i : Input} {first : Char} {others : Text}

/-- Without backslashes in it, reading up to a backslash takes all of the text. -/
lemma Ready.readTo_backslash (hi : i.Ready) (hb : '\\' ∉ i.pending) :
    i.readTo '\\' = .ok (i.pending, false) (i.leaving []) := by
  fun_induction readTo '\\' i with
  | case1 i e j h => simp [hi.next_eq] at h
  | case2 i j h =>
    obtain ⟨hp, rfl⟩ := hi.of_next_none h
    have hlen : i.pushback.length ≤ 1 := Nat.le_trans (length_pushback_le i) (by simp [hp])
    rw [drop_eq_leaving hi hlen, hp]
    rfl
  | case3 i j h =>
    obtain ⟨t, hp, rfl⟩ := hi.of_next_some h
    simp [hp] at hb
  | case8 i c j h hne hslash t found k hk ih =>
    obtain ⟨s, hp, rfl⟩ := hi.of_next_some h
    have hs : '\\' ∉ (i.drop 1).pending := by
      rw [pending_drop]
      exact fun h => hb (List.mem_of_mem_drop h)
    rw [ih (hi.drop 1) hs] at hk
    cases hk
    simp [hp]
  | case9 i c j h hne hslash e k hk ih =>
    obtain ⟨s, hp, rfl⟩ := hi.of_next_some h
    have hs : '\\' ∉ (i.drop 1).pending := by
      rw [pending_drop]
      exact fun h => hb (List.mem_of_mem_drop h)
    rw [ih (hi.drop 1) hs] at hk
    cases hk
  | _ => contradiction

/-- Reading up to a terminator in a text without backslashes. -/
lemma Ready.readThrough_plain (hi : i.Ready) (hp : i.pushback = []) (hb : '\\' ∉ i.pending) :
    readThrough first others (plainReader first) [] i =
      match cutUnescaped? (first :: others) i.pending with
      | some (before, after) => .ok (before ++ first :: others) (i.leaving after)
      | none => .error (.missingTerminator (first :: others) i.pending) (i.leaving []) := by
  -- The scan for a terminator steps over an escaped character before it compares, which is the
  -- first of the terminator only where that is a backslash.
  by_cases hf : first = '\\'
  · subst hf
    have hnone : cutUnescaped? ('\\' :: others) i.pending = none :=
      (cutUnescaped?_eq_none_iff hb).2 fun h => hb (h.subset List.mem_cons_self)
    have hread : (plainReader '\\').read i = .ok (i.pending, false) (i.leaving []) :=
      hi.readTo_backslash hb
    rw [hnone, readThrough]
    split
    · rename_i h
      cases hread.symm.trans h
    · rename_i h
      cases hread.symm.trans h
      rfl
    · rename_i h
      cases hread.symm.trans h
  · rw [hi.readThrough_eq hf (by simp [hp])]
    cases hcut : cutUnescaped? (first :: others) i.pending with
    | none => simp [unescape_eq_self hb]
    | some cut =>
      have hbefore : '\\' ∉ cut.1 := by
        intro h
        rw [(of_cutUnescaped? hcut).2] at hb
        exact hb (List.mem_append_left _ h)
      simp [unescape_eq_self hbefore]

end Reading

/-- **A terminator is found at its first occurrence.**  Let nothing have been pushed back on an
input that is not closed, and let its text have no backslashes.  Reading up to a terminator of two
or more characters takes the shortest start of the text that ends with the terminator, and leaves
what comes after it, with nothing pushed back.  It is a fault of the text, which has then been read
to its end, exactly if the terminator does not occur. -/
theorem readUntil_terminator {i : Input} (hp : i.pushback = []) (hc : i.isClosed = false)
    (hb : '\\' ∉ i.rest) (ending : Text) (he : 2 ≤ ending.length) :
    (∀ p j, i.readUntil ending false = .ok p j ↔
      Shortest ending i.rest p ∧ j = i.leaving (i.rest.drop p.length)) ∧
    (∀ fault j, i.readUntil ending false = .error fault j ↔
      ¬ ending <:+: i.rest ∧ fault = .missingTerminator ending i.rest ∧ j = i.leaving []) := by
  rcases ending with _ | ⟨first, _ | ⟨second, others⟩⟩
  · simp at he
  · simp at he
  -- The state of the source makes no difference, only what is left of it, and it is the same as
  -- that of an input that has been read from.
  have hready : (i.leaving i.rest).Ready := ⟨rfl, hc⟩
  have hread : readThrough first (second :: others) (plainReader first) [] (i.leaving i.rest) = _ :=
    hready.readThrough_plain rfl hb
  rw [readThrough_congr first _ [] (readTo_congr first (next_leaving_rest hp))] at hread
  rw [readUntil]
  simp only [Bool.false_eq_true, if_false]
  rw [hread, pending_leaving]
  cases hcut : cutUnescaped? (first :: second :: others) i.rest with
  | none =>
    have hnot := (cutUnescaped?_eq_none_iff hb).1 hcut
    refine ⟨fun p j => ⟨fun h => ?_, fun h => absurd h.1.isInfix hnot⟩, fun fault j => ?_⟩
    · cases h
    · simp [hnot, eq_comm]
  | some cut =>
    obtain ⟨before, after⟩ := cut
    have hshort := shortest_of_cut hb hcut
    have hrest : i.rest.drop (before ++ first :: second :: others).length = after := by
      rw [(of_cutUnescaped? hcut).2, ← List.append_assoc, List.drop_left]
    constructor
    · refine fun p j => ⟨fun h => ?_, fun ⟨hp, hj⟩ => ?_⟩
      · cases h
        exact ⟨hshort, by rw [hrest]; rfl⟩
      · obtain rfl := hshort.unique hp
        rw [hj, hrest]
        rfl
    · refine fun fault j => ⟨fun h => ?_, fun h => absurd hshort.isInfix h.1⟩
      cases h

/-- An input with a terminator behind a part of it, and without another. -/
def overlappingInput : Input := ofText "aaab!".toList

/-- The terminator is found where it starts for the second time, the other one is missing. -/
theorem readUntil_terminator_overlapping :
    overlappingInput.pushback = [] ∧ overlappingInput.isClosed = false ∧
      '\\' ∉ overlappingInput.rest ∧ 2 ≤ "aab".toList.length ∧ 2 ≤ "ba".toList.length ∧
      overlappingInput.readUntil "aab".toList false =
        .ok "aaab".toList (overlappingInput.leaving ['!']) ∧
      overlappingInput.readUntil "ba".toList false =
        .error (.missingTerminator "ba".toList "aaab!".toList) (overlappingInput.leaving []) := by
  have hb : '\\' ∉ overlappingInput.rest := by decide
  have hfound := readUntil_terminator (i := overlappingInput) rfl rfl hb "aab".toList (by decide)
  have hmissing := readUntil_terminator (i := overlappingInput) rfl rfl hb "ba".toList (by decide)
  exact ⟨rfl, rfl, hb, by decide, by decide, (hfound.1 _ _).2 ⟨by decide, rfl⟩,
    (hmissing.2 _ _).2 ⟨by decide, rfl, rfl⟩⟩

end Stencil.Input
