import Mathlib.Tactic.Lemma
import Stencil.Input.Comment

/-!
# Reading from what is pending

An input is a text that is still pending, but part of it may have been pushed back, and a line of
the source knows the difference.  This file takes the difference out of the way.  `Input.drop` is an
input after some characters have been read, wherever they stood, and `Input.leaving` one on which
nothing is pushed back; where no more has been pushed back than is read, the two agree
(`drop_eq_leaving`). The operations on single characters and on runs of them are then equations
about the pending text, for every input that is `Ready`: opened, and not closed (`Ready.next_eq`,
`Ready.readWhile_eq`).
-/

namespace Stencil.Input

/-! ## Inputs that can be read -/

/-- An input that has been opened and not been closed. -/
structure Ready (i : Input) : Prop where
  isOpen : i.isOpen = true
  notClosed : i.isClosed = false

/-- An input after `n` of the pending characters have been read. -/
def drop (n : Nat) (i : Input) : Input :=
  { i with pushback := i.pushback.drop n, rest := i.rest.drop (n - i.pushback.length) }

/-- An open input of which a text is left, nothing of it pushed back. -/
def leaving (i : Input) (t : Text) : Input := { i with pushback := [], rest := t, isOpen := true }

variable {i j : Input} {c : Char} {t : Text}

@[simp] lemma pending_drop (n : Nat) (i : Input) : (i.drop n).pending = i.pending.drop n := by
  simp [pending, drop, List.drop_append]

@[simp] lemma pending_leaving (i : Input) (t : Text) : (i.leaving t).pending = t := rfl

@[simp] lemma pushback_leaving (i : Input) (t : Text) : (i.leaving t).pushback = [] := rfl

@[simp] lemma drop_zero (i : Input) : i.drop 0 = i := by simp [drop]

@[simp] lemma drop_drop (m n : Nat) (i : Input) : (i.drop m).drop n = i.drop (m + n) := by
  have hrest : m - i.pushback.length + (n - (i.pushback.length - m)) =
      m + n - i.pushback.length := by omega
  simp [drop, List.drop_drop, hrest]

@[simp] lemma drop_unread (n : Nat) (c : Char) (i : Input) :
    (i.unread c).drop (n + 1) = i.drop n := by
  simp [drop, unread]

@[simp] lemma leaving_drop (n : Nat) (i : Input) (t : Text) : (i.drop n).leaving t = i.leaving t :=
  rfl

@[simp] lemma leaving_unread (c : Char) (i : Input) (t : Text) :
    (i.unread c).leaving t = i.leaving t := rfl

@[simp] lemma leaving_leaving (i : Input) (s t : Text) :
    (i.leaving s).leaving t = i.leaving t := rfl

@[simp] lemma drop_leaving (n : Nat) (i : Input) (t : Text) :
    (i.leaving t).drop n = i.leaving (t.drop n) := by simp [drop, leaving]

@[simp] lemma length_pushback_drop (n : Nat) (i : Input) :
    (i.drop n).pushback.length = i.pushback.length - n := by simp [drop]

lemma length_pushback_le (i : Input) : i.pushback.length ≤ i.pending.length := by
  simp [pending]

/-- Reading at least what has been pushed back leaves the pending text on its own. -/
lemma drop_eq_leaving (hi : i.Ready) {n : Nat} (hn : i.pushback.length ≤ n) :
    i.drop n = i.leaving (i.pending.drop n) := by
  simp [drop, leaving, pending, List.drop_append, List.drop_eq_nil_of_le hn, hi.isOpen]

@[simp] lemma leaving_unreadOption (o : Option Char) (i : Input) (t : Text) :
    (i.unreadOption o).leaving t = i.leaving t := by cases o <;> rfl

/-- What has been read and pushed back is pending again. -/
lemma pending_unreadOption_drop (i : Input) :
    ((i.drop 1).unreadOption i.pending.head?).pending = i.pending := by
  cases h : i.pending with
  | nil => simp [Input.unreadOption, h]
  | cons c t => simp [Input.unreadOption, h]

/-- Pushing back one character takes up the room of the one that was read. -/
lemma length_pushback_unreadOption_drop_le (o : Option Char) (i : Input) :
    ((i.drop 1).unreadOption o).pushback.length ≤ max i.pushback.length 1 := by
  cases o with
  | none =>
    simp only [Input.unreadOption, length_pushback_drop]
    omega
  | some c =>
    simp only [Input.unreadOption, Input.unread, List.length_cons, length_pushback_drop]
    omega

lemma Ready.drop (hi : i.Ready) (n : Nat) : (i.drop n).Ready := ⟨hi.isOpen, hi.notClosed⟩

lemma Ready.unread (hi : i.Ready) (c : Char) : (i.unread c).Ready := ⟨hi.isOpen, hi.notClosed⟩

lemma Ready.unreadOption (hi : i.Ready) (o : Option Char) : (i.unreadOption o).Ready := by
  cases o with
  | none => exact hi
  | some c => exact hi.unread c

lemma Ready.leaving (hi : i.Ready) (t : Text) : (i.leaving t).Ready := ⟨rfl, hi.notClosed⟩

/-- An input that a text is left on, at most one character of it pushed back, and that is otherwise
like `i`. -/
structure IsLeft (i : Input) (s : Text) (k : Input) : Prop where
  ready : k.Ready
  length_pushback_le : k.pushback.length ≤ 1
  pending_eq : k.pending = s
  leaving_eq : ∀ t, k.leaving t = i.leaving t

lemma IsLeft.targets_eq {k : Input} {s : Text} (hk : IsLeft i s k) : k.targets = i.targets := by
  have h : (k.leaving []).targets = (i.leaving []).targets := by rw [hk.leaving_eq]
  exact h

lemma Ready.isLeft_leaving (hi : i.Ready) (s : Text) : IsLeft i s (i.leaving s) :=
  ⟨hi.leaving s, Nat.zero_le _, rfl, fun _ => rfl⟩

/-! ## Steps in a row -/

section Steps

variable {α β : Type} {a b : α} {x : Reading α} {f : α → Reading β}

lemma bind_of_ok {a : α} (h : x i = .ok a j) :
    (x >>= f) i = f a j := by
  change EStateM.bind x f i = f a j
  rw [EStateM.bind, h]

lemma bind_of_error {fault : InputFault}
    (h : x i = .error fault j) : (x >>= f) i = .error fault j := by
  change EStateM.bind x f i = .error fault j
  rw [EStateM.bind, h]

lemma bind_congr_left (h : x i = x j) : (x >>= f) i = (x >>= f) j := by
  change EStateM.bind x f i = EStateM.bind x f j
  rw [EStateM.bind, EStateM.bind, h]

/-- Two steps come to something when the second does where the first has left off. -/
lemma bind_eq_ok_iff {b : β} :
    (x >>= f) i = .ok b j ↔ ∃ a k, x i = .ok a k ∧ f a k = .ok b j := by
  constructor
  · intro h
    cases hx : x i with
    | ok a k => exact ⟨a, k, rfl, by rwa [bind_of_ok hx] at h⟩
    | error fault k => cases (bind_of_error hx).symm.trans h
  · rintro ⟨a, k, hx, hf⟩
    rw [bind_of_ok hx, hf]

lemma pure_eq_ok_iff : (pure a : Reading α) i = .ok b j ↔ a = b ∧ i = j := by
  have hrun : (pure a : Reading α) i = .ok a i := rfl
  rw [hrun, EStateM.Result.ok.injEq]

lemma get_eq_ok_iff {k : Input} : (get : Reading Input) i = .ok k j ↔ i = k ∧ i = j := by
  have hrun : (get : Reading Input) i = .ok i i := rfl
  rw [hrun, EStateM.Result.ok.injEq]

lemma bind_pure_eq_ok_iff {g : α → β} {b : β} :
    (x >>= fun a => pure (g a) : Reading β) i = .ok b j ↔ ∃ a, x i = .ok a j ∧ b = g a := by
  constructor
  · intro h
    obtain ⟨a, k, hx, hf⟩ := bind_eq_ok_iff.1 h
    obtain ⟨rfl, rfl⟩ := pure_eq_ok_iff.1 hf
    exact ⟨a, hx, rfl⟩
  · rintro ⟨a, hx, rfl⟩
    exact bind_eq_ok_iff.2 ⟨a, j, hx, rfl⟩

/-- A check that is passed. -/
lemma unless_eq_ok_iff {p : Prop} [Decidable p] {fault : InputFault} {g : β → Reading α} :
    (if p then throw fault >>= g else x) i = .ok b j ↔ ¬ p ∧ x i = .ok b j := by
  by_cases hp : p
  · rw [if_pos hp]
    refine ⟨fun h => ?_, fun h => absurd hp h.1⟩
    cases h
  · rw [if_neg hp]
    exact ⟨fun h => ⟨hp, h⟩, fun h => h.2⟩

end Steps

/-! ## Single characters -/

/-- The next character is the first of those pending. -/
lemma Ready.next_eq (hi : i.Ready) : i.next = .ok i.pending.head? (i.drop 1) := by
  unfold next
  split
  · rename_i c pushback hp
    simp [pending, Input.drop, hp]
  · rename_i hp
    rw [hi.notClosed, if_neg Bool.false_ne_true]
    split
    · rename_i hr
      simp [pending, Input.drop, hp, hr, hi.isOpen, hi.notClosed]
    · rename_i c rest hr
      simp [pending, Input.drop, hp, hr, hi.isOpen, hi.notClosed]

lemma Ready.of_next_none (hi : i.Ready) (h : i.next = .ok none j) :
    i.pending = [] ∧ i.drop 1 = j := by
  rw [hi.next_eq] at h
  simp only [EStateM.Result.ok.injEq, List.head?_eq_none_iff] at h
  exact h

lemma Ready.of_next_some (hi : i.Ready) (h : i.next = .ok (some c) j) :
    ∃ t, i.pending = c :: t ∧ i.drop 1 = j := by
  rw [hi.next_eq] at h
  simp only [EStateM.Result.ok.injEq, List.head?_eq_some_iff] at h
  obtain ⟨⟨t, ht⟩, hj⟩ := h
  exact ⟨t, ht, hj⟩

lemma Ready.next_cons (hi : i.Ready) (hp : i.pending = c :: t) :
    i.next = .ok (some c) (i.drop 1) := by
  rw [hi.next_eq, hp, List.head?_cons]

lemma Ready.next_leaving (hi : i.Ready) (t : Text) :
    (i.leaving t).next = .ok t.head? (i.leaving (t.drop 1)) := by
  rw [(hi.leaving t).next_eq, pending_leaving, drop_leaving]

/-- A character is read off its text, where no more than this one has been pushed back. -/
lemma Ready.next_of_pending (hi : i.Ready) (hback : i.pushback.length ≤ 1)
    (hp : i.pending = c :: t) : i.next = .ok (some c) (i.leaving t) := by
  rw [hi.next_cons hp, drop_eq_leaving hi hback, hp]
  rfl

lemma IsLeft.next {k : Input} (hk : IsLeft i (c :: t) k) : k.next = .ok (some c) (i.leaving t) := by
  rw [hk.ready.next_of_pending hk.length_pushback_le hk.pending_eq, hk.leaving_eq]

/-- A character that has been looked at is left. -/
lemma Ready.isLeft_peeked (hi : i.Ready) (t : Text) :
    IsLeft i t ((i.leaving (t.drop 1)).unreadOption t.head?) where
  ready := (hi.leaving _).unreadOption _
  length_pushback_le := by cases t <;> simp [Input.unreadOption, Input.unread]
  pending_eq := by simpa using pending_unreadOption_drop (i.leaving t)
  leaving_eq s := by simp

/-! ## Runs of characters -/

/-- A run ends before the first pending character that is not of its class; that one is pushed
back. -/
lemma Ready.readWhile_eq (hi : i.Ready) (p : Char → Bool) :
    i.readWhile p =
      .ok (i.pending.takeWhile p) ((i.drop ((i.pending.takeWhile p).length + 1)).unreadOption
        (i.pending.dropWhile p).head?) := by
  fun_induction readWhile p i with
  | case1 i e j h => simp [hi.next_eq] at h
  | case2 i j h =>
    obtain ⟨hp, rfl⟩ := hi.of_next_none h
    simp [hp, Input.unreadOption]
  | case3 i c j h hc w k hk ih =>
    obtain ⟨t, hp, rfl⟩ := hi.of_next_some h
    have hrest := ih (hi.drop 1)
    rw [hk] at hrest
    simp only [EStateM.Result.ok.injEq] at hrest
    obtain ⟨rfl, rfl⟩ := hrest
    simp [hp, hc, Nat.add_comm 1]
  | case4 i c j h hc e k hk ih =>
    obtain ⟨t, hp, rfl⟩ := hi.of_next_some h
    rw [ih (hi.drop 1)] at hk
    cases hk
  | case5 i c j h hc =>
    obtain ⟨t, hp, rfl⟩ := hi.of_next_some h
    simp [hp, hc, Input.unreadOption]

/-! ## Inputs that are yet to be opened

Reading depends on an input only through its next character and what that leaves; so it is no matter
whether an input has been opened, where nothing has been pushed back. -/

/-- The first read opens an input. -/
lemma next_leaving_rest (hp : i.pushback = []) : (i.leaving i.rest).next = i.next := by
  unfold next
  rw [hp]
  rfl

lemma readWhile_congr (p : Char → Bool) (h : i.next = j.next) : i.readWhile p = j.readWhile p := by
  rw [readWhile, readWhile, h]

lemma readTo_congr (closing : Char) (h : i.next = j.next) :
    i.readTo closing = j.readTo closing := by
  rw [readTo, readTo, h]

lemma readThrough_congr (first : Char) (others before : Text) {reader : CharReader}
    (h : reader.read i = reader.read j) :
    readThrough first others reader before i = readThrough first others reader before j := by
  rw [readThrough, readThrough, h]

lemma skipTrivia_congr (skipped : Text) (h : i.next = j.next) :
    i.skipTrivia skipped = j.skipTrivia skipped := by
  rw [skipTrivia, skipTrivia, h]

lemma readOutside_congr (closing : Char) (h : i.next = j.next) :
    i.readOutside closing = j.readOutside closing := by
  rw [readOutside, readOutside, h]

end Stencil.Input
