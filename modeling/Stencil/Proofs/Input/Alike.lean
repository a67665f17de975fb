import Mathlib.Data.List.Infix
import Stencil.Pair.Read
import Stencil.Proofs.Input.Ready

/-!
# Inputs that have the same text pending

What is pending on an input is partly pushed back and partly left in its source, and only the
reading of lines can tell the two apart.  This file compares inputs that may disagree on where the
one ends and the other begins (`Alike`).  Where they do, all that has been pushed back is in a class
of texts, and it stays in it, because what the readers push back they have read just before: the
relation carries that text along, and the class has with a text all that stands in it.

The readers of characters and of delimited texts come to the same on inputs that are alike, whatever
the class is (`level_readWhile` to `level_readThrough`).  Each of them only passes on what it reads,
so the induction is the one of its recursion.
-/

namespace Stencil.Input

variable {α : Type}

/-! ## The relation -/

/-- A class of texts that has with a text all that stands in it. -/
structure PartClass where
  Has : Text → Prop
  of_infix : ∀ {s t : Text}, s <:+: t → Has t → Has s

/-- Two inputs that have the same text pending.  They need not agree on how much of it has been
pushed back, but where they do not both texts that have been are in the class `P`; so they are still
if `s`, which has been read last, is put back. -/
structure Alike (P : PartClass) (s : Text) (i j : Input) : Prop where
  pending : i.pending = j.pending
  targets : i.targets = j.targets
  left : i.isClosed = false
  right : j.isClosed = false
  pushback : i.pushback = j.pushback ∨ P.Has (s ++ i.pushback) ∧ P.Has (s ++ j.pushback)

/-- Two outcomes that are of one value, with `R` between what is left, or of one fault, with the
same text left. -/
def Level (R : α → Input → Input → Prop) :
    EStateM.Result InputFault Input α → EStateM.Result InputFault Input α → Prop
  | .ok a i, .ok b j => a = b ∧ R a i j
  | .error e i, .error f j => e = f ∧ i.pending = j.pending
  | _, _ => False

variable {P : PartClass} {s t : Text} {i j i' j' : Input} {c : Char}

/-- What reading a character leaves. -/
lemma exists_next (hi : i.isClosed = false) :
    ∃ j, i.next = .ok i.pending.head? j ∧ j.pushback = i.pushback.tail ∧
      j.pending = i.pending.tail ∧ j.targets = i.targets ∧ j.isClosed = false := by
  obtain ⟨origin, pushback, rest, isOpen, isClosed, targets⟩ := i
  obtain rfl : isClosed = false := hi
  cases pushback with
  | cons c q => exact ⟨_, rfl, rfl, rfl, rfl, rfl⟩
  | nil =>
    cases rest with
    | nil => exact ⟨_, rfl, rfl, rfl, rfl, rfl⟩
    | cons c t => exact ⟨_, rfl, rfl, rfl, rfl, rfl⟩

/-- Of two different starts of a text, each with what has been read before it in a class, either can
lose its first character to what has been read. -/
lemma PartClass.has_tail {q q' u u' : Text} (h : q ++ u = q' ++ u') (hne : q ≠ q')
    (hq : P.Has (s ++ q)) (hq' : P.Has (s ++ q')) :
    P.Has (s ++ (q ++ u).head?.toList ++ q.tail) := by
  cases q with
  | cons c q => simpa using hq
  | nil =>
    cases q' with
    | nil => exact absurd rfl hne
    | cons c q' =>
      rw [h]
      exact P.of_infix ⟨[], q', by simp⟩ hq'

namespace Alike

attribute [grind →] pending

/-- Of what has been read last, a first part may be forgotten. -/
lemma append_right (h : Alike P (s ++ t) i j) : Alike P t i j where
  pending := h.pending
  targets := h.targets
  left := h.left
  right := h.right
  pushback := h.pushback.imp_right fun hp =>
    ⟨P.of_infix ⟨s, [], by simp⟩ hp.1, P.of_infix ⟨s, [], by simp⟩ hp.2⟩

@[grind →] lemma nil (h : Alike P s i j) : Alike P [] i j :=
  append_right (s := s) (by simpa using h)

/-- What has been read last can be put back. -/
lemma unread (h : Alike P (s ++ [c]) i j) : Alike P s (i.unread c) (j.unread c) where
  pending := by simp [h.pending]
  targets := h.targets
  left := h.left
  right := h.right
  pushback := h.pushback.imp (by rintro hp; simp [Input.unread, hp]) (by simp [Input.unread])

@[grind →] lemma unread_nil (h : Alike P [c] i j) : Alike P [] (i.unread c) (j.unread c) := h.unread

lemma unreadOption {c : Option Char} (h : Alike P (s ++ c.toList) i j) :
    Alike P s (i.unreadOption c) (j.unreadOption c) := by
  cases c with
  | none => exact append_right (s := []) (by simpa [Input.unreadOption] using h)
  | some c => exact unread h

/-- Reading a character makes it what has been read last. -/
lemma next (h : Alike P s i j) : ∃ c i' j', i.next = .ok c i' ∧ j.next = .ok c j' ∧
    Alike P (s ++ c.toList) i' j' := by
  obtain ⟨i', hi, hbi, hpi, hti, hci⟩ := exists_next h.left
  obtain ⟨j', hj, hbj, hpj, htj, hcj⟩ := exists_next h.right
  refine ⟨i.pending.head?, i', j', hi, by rw [h.pending, hj], ?_, ?_, hci, hcj, ?_⟩
  · rw [hpi, hpj, h.pending]
  · rw [hti, htj, h.targets]
  · rw [hbi, hbj]
    -- Two pushbacks that differ are both of the class, and the class is kept by taking the first
    -- character off.
    by_cases hb : i.pushback = j.pushback
    · exact .inl (by rw [hb])
    · obtain ⟨hPi, hPj⟩ := h.pushback.resolve_left hb
      refine .inr ⟨P.has_tail h.pending hb hPi hPj, ?_⟩
      rw [h.pending]
      exact P.has_tail h.pending.symm (Ne.symm hb) hPj hPi

/-- A character read from one of two inputs is there to be read from the other. -/
lemma of_next (h : Alike P s i j) {c : Option Char} (hi : i.next = .ok c i') :
    ∃ j', j.next = .ok c j' ∧ Alike P (s ++ c.toList) i' j' := by
  obtain ⟨d, i₁, j₁, hi₁, hj₁, h₁⟩ := h.next
  obtain ⟨rfl, rfl⟩ : d = c ∧ i₁ = i' := by simpa [hi] using hi₁.symm
  exact ⟨j₁, hj₁, h₁⟩

@[grind →] lemma of_next_some (h : Alike P s i j) (hi : i.next = .ok (some c) i') :
    ∃ j', j.next = .ok (some c) j' ∧ Alike P (s ++ [c]) i' j' := h.of_next hi

@[grind →] lemma of_next_none (h : Alike P s i j) (hi : i.next = .ok none i') :
    ∃ j', j.next = .ok none j' ∧ Alike P s i' j' := by
  simpa using h.of_next hi

@[grind →] lemma next_error (h : Alike P s i j) {e : InputFault} (hi : i.next = .error e i') :
    False := by
  obtain ⟨d, i₁, j₁, hi₁, -⟩ := h.next
  simp [hi₁] at hi

end Alike

@[grind =] lemma level_ok {R : α → Input → Input → Prop} {a b : α} :
    Level R (.ok a i) (.ok b j) ↔ a = b ∧ R a i j := Iff.rfl

@[grind =] lemma level_error {R : α → Input → Input → Prop} {e f : InputFault} :
    Level R (.error e i) (.error f j) ↔ e = f ∧ i.pending = j.pending := Iff.rfl

@[grind →] lemma Level.of_ok {R : α → Input → Input → Prop} {a : α}
    {r : EStateM.Result InputFault Input α} (h : Level R (.ok a i) r) :
    ∃ j, r = .ok a j ∧ R a i j := by
  cases r with
  | ok b j => exact ⟨j, by rw [h.1], h.2⟩
  | error e j => exact h.elim

@[grind →] lemma Level.of_error {R : α → Input → Input → Prop} {e : InputFault}
    {r : EStateM.Result InputFault Input α} (h : Level R (.error e i) r) :
    ∃ j, r = .error e j ∧ i.pending = j.pending := by
  cases r with
  | ok b j => exact h.elim
  | error f j => exact ⟨j, by rw [h.1], h.2⟩

/-- Two outcomes on a level are of one kind. -/
lemma Level.cases {R : α → Input → Input → Prop} {r r' : EStateM.Result InputFault Input α}
    (h : Level R r r') : (∃ a i j, r = .ok a i ∧ r' = .ok a j ∧ R a i j) ∨
      ∃ e i j, r = .error e i ∧ r' = .error e j ∧ i.pending = j.pending := by
  cases r with
  | ok a i =>
    obtain ⟨j, hr', hR⟩ := h.of_ok
    exact .inl ⟨a, i, j, rfl, hr', hR⟩
  | error e i =>
    obtain ⟨j, hr', hp⟩ := h.of_error
    exact .inr ⟨e, i, j, rfl, hr', hp⟩

/-! ## Readers -/

lemma level_readWhile (h : Alike P [] i j) (p : Char → Bool) :
    Level (fun _ => Alike P []) (i.readWhile p) (j.readWhile p) := by
  fun_induction readWhile p i generalizing j with grind [readWhile]

lemma level_readTo (h : Alike P [] i j) (closing : Char) :
    Level (fun _ => Alike P []) (i.readTo closing) (j.readTo closing) := by
  fun_induction readTo closing i generalizing j with grind [readTo]

grind_pattern level_readTo => Alike P [] i j, i.readTo closing

lemma level_readClosed (h : Alike P [] i j) (name : Text) (closing : Char) :
    Level (fun _ => Alike P []) (i.readClosed name closing) (j.readClosed name closing) := by
  fun_cases readClosed name closing i with grind [readClosed]

grind_pattern level_readClosed => Alike P [] i j, i.readClosed name closing

lemma level_readExactly (h : Alike P s i j) :
    Level (fun found => Alike P (if found then s ++ t else s)) (readExactly t i)
      (readExactly t j) := by
  -- By induction on the characters that are expected; on a failure each level pushes back its own
  -- character, so that nothing has been read in the end.
  induction t generalizing s i j with
  | nil => exact ⟨rfl, by simpa using h⟩
  | cons c t ih =>
    obtain ⟨d, i', j', hi, hj, h'⟩ := h.next
    rw [readExactly, readExactly, hi, hj]
    by_cases hd : d = some c
    · subst hd
      simp only [if_pos]
      rcases (ih h').cases with ⟨found, k, l, hk, hl, hkl⟩ | ⟨e, k, l, hk, hl, hp⟩
      · simp only [hk, hl]
        cases found with
        | true => exact ⟨rfl, by simpa using hkl⟩
        | false => exact ⟨rfl, Alike.unread hkl⟩
      · simp only [hk, hl]
        exact ⟨rfl, hp⟩
    · simp only [if_neg hd]
      exact ⟨rfl, h'.unreadOption⟩

grind_pattern level_readExactly => Alike P s i j, readExactly t i

lemma level_readThrough (h : Alike P [] i j) (first : Char) (others : Text) {reader : CharReader}
    (hr : ∀ {i j}, Alike P [] i j → Level (fun _ => Alike P []) (reader.read i) (reader.read j))
    (before : Text) :
    Level (fun _ => Alike P []) (readThrough first others reader before i)
      (readThrough first others reader before j) := by
  fun_induction readThrough first others reader before i generalizing j with grind [readThrough]

lemma level_readThrough_plain (h : Alike P [] i j) (first : Char) (others before : Text) :
    Level (fun _ => Alike P []) (readThrough first others (plainReader first) before i)
      (readThrough first others (plainReader first) before j) :=
  level_readThrough h first others (fun h => level_readTo h first) before

end Stencil.Input
