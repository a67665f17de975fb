import Stencil.Proofs.Input.Pushback
import Stencil.Proofs.Input.Unclosed

/-!
# What a reading leaves

Almost every reader pushes characters back, some of them several at a time and some in another place
than they were taken from: an unquoted value gives back the slash of the tag's end after comments
behind it have been dropped.  So what is left need not be the end of what was to be read.  It is a
part of it in the same order all the same, nothing having been added or been read twice.

`Within` says this of an outcome, together with the characters that the next reader may push back.
The readers are taken one by one, by the recursion that their termination rests on, which is on how
much is still to be read.  The readings that are put together from others are `Frugal`: each is
handed the characters that it may push back.  `Operation.run_ends` has both this and what an
operation can fail for.
-/

namespace Stencil.Input

open scoped List

variable {α β : Type} {i j : Input} {s : Text} {t : α → Text}

/-! ## Outcomes -/

/-- An outcome that leaves a part of a text, in its order; of a value the characters `t` may be put
in front of what is left. -/
def Within (s : Text) (t : α → Text) : EStateM.Result InputFault Input α → Prop
  | .ok a j => t a ++ j.pending <+ s
  | .error _ j => j.pending <+ s

@[local grind =] lemma within_ok {a : α} : Within s t (.ok a j) ↔ t a ++ j.pending <+ s := Iff.rfl

@[local grind =] lemma within_error {fault : InputFault} :
    Within s t (.error fault j) ↔ j.pending <+ s := Iff.rfl

@[local grind →] lemma Within.mono {s' : Text} {r : EStateM.Result InputFault Input α}
    (h : Within s t r) (hs : s <+ s') : Within s' t r := by
  cases r with
  | ok a j => exact List.Sublist.trans h hs
  | error fault j => exact List.Sublist.trans h hs

lemma Within.forget {r : EStateM.Result InputFault Input α} (h : Within s t r) :
    Within s (fun _ => []) r := by
  cases r with
  | ok a j => exact (List.sublist_append_right (t a) j.pending).trans h
  | error fault j => exact h

lemma pending_unreadOption (c : Option Char) (i : Input) :
    (i.unreadOption c).pending = c.toList ++ i.pending := by
  cases c <;> rfl

attribute [local grind =] pending_unread pending_unreadOption
attribute [local grind →] pending_of_next_some pending_of_next_none List.Sublist.trans
attribute [local grind .] List.Sublist.cons List.Sublist.refl

/-! ## Readers

What is known of the readers that one calls settles the cases of its definition, by transitivity
and without arithmetic. -/

/-- Reading a character takes this one only. -/
lemma within_next (i : Input) : Within i.pending Option.toList i.next := by
  unfold next
  split
  · rename_i hp
    simp [Within, pending, hp]
  · rename_i hp
    split
    · simp [Within, pending]
    · split
      · rename_i hr
        simp [Within, pending, hr, hp]
      · rename_i hr
        simp [Within, pending, hr, hp]

local grind_pattern within_next => i.next

lemma within_readWhile (i : Input) (p : Char → Bool) :
    Within i.pending (fun _ => []) (i.readWhile p) := by
  fun_induction readWhile p i with grind -linarith

local grind_pattern within_readWhile => i.readWhile p

lemma within_skipAny (i : Input) (skipped : Text) :
    Within i.pending (fun _ => []) (i.skipAny skipped) := by
  fun_cases skipAny skipped i with grind -linarith

/-- What a line among the pushed-back characters leaves need not be their end: a second character
that could end the line is left out. -/
lemma within_readLine (i : Input) : Within i.pending (fun _ => []) i.readLine := by
  unfold readLine
  split
  · rename_i line left hp
    have hleft : left <+ i.pushback := by
      have h := (isInfix_left i.pushback).sublist
      rwa [hp] at h
    exact hleft.append_right i.rest
  · have hrest : i.rest <+ i.pending := List.sublist_append_right i.pushback i.rest
    split
    · exact hrest
    · exact (suffix_joinLines _ i.rest).sublist.trans hrest

local grind_pattern within_readLine => i.readLine

lemma within_readTo (i : Input) (closing : Char) :
    Within i.pending (fun _ => []) (i.readTo closing) := by
  fun_induction readTo closing i with grind -linarith

local grind_pattern within_readTo => i.readTo closing

lemma within_readClosed (i : Input) (name : Text) (closing : Char) :
    Within i.pending (fun _ => []) (i.readClosed name closing) := by
  fun_cases readClosed name closing i with grind -linarith

local grind_pattern within_readClosed => i.readClosed name closing

lemma within_readExactly (i : Input) (expected : Text) :
    Within i.pending (fun found => if found then expected else []) (readExactly expected i) := by
  fun_induction readExactly expected i with grind -linarith

local grind_pattern within_readExactly => readExactly expected i

lemma within_readThrough (i : Input) (first : Char) (others : Text) {reader : CharReader}
    (hr : ∀ i : Input, Within i.pending (fun _ => []) (reader.read i)) (before : Text) :
    Within i.pending (fun _ => []) (readThrough first others reader before i) := by
  fun_induction readThrough first others reader before i with grind -linarith

lemma within_readThrough_plain (i : Input) (first : Char) (others before : Text) :
    Within i.pending (fun _ => []) (readThrough first others (plainReader first) before i) :=
  within_readThrough i first others (fun i => within_readTo i first) before

local grind_pattern within_readThrough_plain =>
  readThrough first others (plainReader first) before i

lemma within_skipMarkup (i : Input) :
    Within ('<' :: i.pending) (fun skipped => if skipped then [] else ['<']) i.skipMarkup := by
  -- The start of what is no comment is pushed back once more for the fault to show the line.
  have hagain : ∀ {d : Option Char} {j k : Input}, readExactly ['!', '-'] i = .ok true j →
      j.next = .ok d k →
      ((((k.unreadOption d).unread '-').unread '!').unread '<').pending <+ '<' :: i.pending := by
    intro d j k hj hk
    have hopening := within_readExactly i ['!', '-']
    have hthird := within_next j
    rw [hj, within_ok] at hopening
    rw [hk, within_ok] at hthird
    simp only [pending_unread, pending_unreadOption]
    exact ((hthird.append_left ['!', '-']).trans hopening).cons_cons '<'
  fun_cases skipMarkup i with grind -linarith

local grind_pattern within_skipMarkup => i.skipMarkup

lemma within_skipComment (i : Input) (c : Char) :
    Within (c :: i.pending) (fun skipped => if skipped then [] else [c]) (i.skipComment c) := by
  fun_cases skipComment c i with grind -linarith

local grind_pattern within_skipComment => i.skipComment c

lemma within_skipTrivia (i : Input) (skipped : Text) :
    Within i.pending (fun _ => []) (i.skipTrivia skipped) := by
  fun_induction skipTrivia skipped i with grind -linarith

local grind_pattern within_skipTrivia => i.skipTrivia skipped

lemma within_readItems (i : Input) (closing : Text) (c : Option Char) :
    Within i.pending (fun _ => []) (i.readItems closing c) := by
  fun_induction readItems closing c i with grind -linarith

/-! ## Text outside comments

A slash at the end of such a text may be pushed back, and the character that ends it. -/

/-- The slash that a text ends with. -/
def lastSlash (t : Text) : Text := if t.getLast? = some '/' then ['/'] else []

lemma lastSlash_append (s : Text) (c : Char) (t : Text) :
    lastSlash (s ++ c :: t) = lastSlash (c :: t) := by simp [lastSlash]

lemma lastSlash_cons {c : Char} (hc : c ≠ '/') (t : Text) : lastSlash (c :: t) = lastSlash t := by
  cases t with
  | nil => simp [lastSlash, hc]
  | cons d t => exact lastSlash_append [c] d t

lemma lastSlash_cons_sublist (c : Char) (t : Text) : lastSlash (c :: t) <+ c :: lastSlash t := by
  by_cases hc : c = '/'
  · subst hc
    refine List.Sublist.trans ?_ ((List.nil_sublist _).cons_cons '/')
    unfold lastSlash
    split
    · exact List.Sublist.refl ['/']
    · exact List.nil_sublist ['/']
  · rw [lastSlash_cons hc]
    exact List.sublist_cons_self c _

lemma lastSlash_escaped_sublist (c : Char) (t : Text) :
    lastSlash (escaped c ++ t) <+ c :: lastSlash t := by
  unfold escaped
  split
  · rw [List.singleton_append, lastSlash_cons (by decide)]
    exact List.sublist_cons_self 'n' _
  · rw [List.singleton_append, lastSlash_cons (by decide)]
    exact List.sublist_cons_self 't' _
  · exact List.sublist_cons_self '\n' _
  · exact lastSlash_cons_sublist c t

/-- What may be pushed back after reading up to `closing`: a slash at the end of the text, and
`closing` if it has been found. -/
def atEnd (closing : Char) (a : Text × Bool) : Text :=
  lastSlash a.1 ++ if a.2 then [closing] else []

section Outside

variable {closing : Char} {t u : Text} {found : Bool}

@[local grind =] lemma atEnd_nil :
    atEnd closing ([], found) = if found then [closing] else [] := rfl

/-- A text gets longer at its front by something that stands for the character `c`. -/
lemma Within.add {c : Char} (h : Within i.pending (atEnd closing) (.ok (t, found) j))
    (hu : lastSlash u <+ c :: lastSlash t) :
    Within (c :: i.pending) (atEnd closing) (.ok (u, found) j) := by
  rw [within_ok, atEnd, List.append_assoc] at h ⊢
  exact (hu.append_right _).trans (h.cons_cons c)

@[local grind .] lemma Within.add_char
    (h : Within i.pending (atEnd closing) (.ok (t, found) j)) (c : Char) :
    Within (c :: i.pending) (atEnd closing) (.ok (c :: t, found) j) :=
  h.add (lastSlash_cons_sublist c t)

@[local grind .] lemma Within.add_quoted
    (h : Within i.pending (atEnd closing) (.ok (t, found) j)) (c : Char) (quoted : Text) :
    Within (c :: i.pending) (atEnd closing) (.ok (c :: quoted ++ c :: t, found) j) := by
  refine h.add ?_
  rw [lastSlash_append]
  exact lastSlash_cons_sublist c t

@[local grind .] lemma Within.add_escaped
    (h : Within i.pending (atEnd closing) (.ok (t, found) j)) (c : Char) :
    Within (c :: i.pending) (atEnd closing) (.ok (escaped c ++ t, found) j) :=
  h.add (lastSlash_escaped_sublist c t)

lemma within_readOutside (i : Input) (closing : Char) :
    Within i.pending (atEnd closing) (i.readOutside closing) := by
  fun_induction readOutside closing i with grind -linarith

local grind_pattern within_readOutside => i.readOutside closing

lemma within_readToOutside (i : Input) (closing : Char) :
    Within i.pending (atEnd closing) (i.readToOutside closing) := by
  fun_cases readToOutside closing i with grind -linarith

end Outside

/-- With or without comments, up to a terminator of any length. -/
lemma within_readUntil (i : Input) (ending : Text) (dropComments : Bool) :
    Within i.pending (fun _ => []) (i.readUntil ending dropComments) := by
  have hreader : ∀ (c : Char) (i : Input), Within i.pending (fun _ => [])
      ((if dropComments then outsideReader c else plainReader c).read i) := by
    intro c i
    cases dropComments with
    | true => exact (within_readToOutside i c).forget
    | false => exact within_readTo i c
  match ending with
  | [] => exact List.Sublist.refl i.pending
  | [c] =>
    have hread := hreader c i
    simp only [readUntil]
    split
    · rename_i h
      rwa [h] at hread
    · rename_i h
      rwa [h] at hread
  | c :: d :: rest => exact within_readThrough i c (d :: rest) (hreader c) []

/-! ## Composed readings -/

/-- A reading that leaves a part of what it has been `handed` and of what is to be read, in this
order; of a value the characters `t` may be put in front of what is left. -/
structure Frugal (handed : Text) (x : Reading α) (t : α → Text) : Prop where
  run : ∀ i : Input, Within (handed ++ i.pending) t (x i)

namespace Frugal

variable {handed : Text} {t : α → Text} {u : β → Text}

protected lemma bind {x : Reading α} {f : α → Reading β} (hx : Frugal handed x t)
    (hf : ∀ a, Frugal (t a) (f a) u) : Frugal handed (x >>= f) u := by
  refine ⟨fun i => ?_⟩
  have hrun := hx.run i
  cases h : x i with
  | ok a j =>
    rw [h, within_ok] at hrun
    rw [bind_of_ok h]
    exact ((hf a).run j).mono hrun
  | error fault j =>
    rw [h, within_error] at hrun
    rw [bind_of_error h]
    exact hrun

/-- What a reading has been handed may be dropped. -/
lemma drop {x : Reading α} (hx : Frugal [] x t) : Frugal handed x t :=
  ⟨fun i => (hx.run i).mono (List.sublist_append_right handed i.pending)⟩

protected lemma pure (a : α) : Frugal handed (pure a) fun _ => [] :=
  .drop ⟨fun i => List.Sublist.refl i.pending⟩

end Frugal

/-- The last of the characters that a reading has been handed is pushed back. -/
lemma frugal_giveBack (handed : Text) (c : Option Char) :
    Frugal (handed ++ c.toList) (giveBack c) fun _ => handed := by
  refine ⟨fun i => ?_⟩
  change Within _ _ (.ok () (i.unreadOption c))
  rw [within_ok, pending_unreadOption, List.append_assoc]

lemma frugal_readUnquoted (start : Text) : Frugal [] (readUnquoted start) fun _ => [] := by
  -- A slash at the end of the value is pushed back; it was read last, so it may be.
  have hrest : ∀ t : Text, Frugal (lastSlash t) (if t.getLast? = some '/' then do
      giveBack (some '/')
      return start ++ Text.trim t.dropLast
    else return start ++ t) fun _ => [] := by
    intro t
    unfold lastSlash
    split
    · exact .bind (frugal_giveBack [] (some '/')) fun _ => .pure _
    · exact .pure _
  refine .bind ⟨fun i => within_readToOutside i '>'⟩ fun (t, found) => ?_
  cases found with
  | true => exact .bind (frugal_giveBack (lastSlash t) (some '>')) fun _ => hrest t
  | false =>
    rw [atEnd, if_neg Bool.false_ne_true, List.append_nil]
    exact hrest t

/-- The sign that is put in where there is no name is read next, and nothing with it. -/
lemma nextPart_unread_sign (i : Input) : nextPart (i.unread '=') = .ok (some '=') i := by
  have hskip : (i.unread '=').skipTrivia margins = .ok () (i.unread '=') := by
    rw [skipTrivia.eq_def]
    rfl
  exact bind_of_ok hskip

/-- No step leaves more than there is. -/
def frugal : Stepwise where
  Holds := Frugal
  pure := .pure
  throw _ := .drop ⟨fun i => List.Sublist.refl i.pending⟩
  bind := .bind
  forget := .drop
  targets hf := ⟨fun i => (hf i.targets).run i⟩
  sign _ hf := by
    refine ⟨fun i => ?_⟩
    change Within _ _ ((nextPart >>= _) (i.unread '='))
    rw [bind_of_ok (nextPart_unread_sign i)]
    exact hf.run i
  nextPart := .bind ⟨fun i => within_skipTrivia i margins⟩ fun _ => ⟨within_next⟩
  giveBack := frugal_giveBack []
  readToken _ := ⟨fun i => within_readWhile i _⟩
  readClosed name closing := ⟨fun i => within_readClosed i name closing⟩
  readItems closing c := ⟨fun i => within_readItems i closing c⟩
  readUnquoted := frugal_readUnquoted

/-! ## Operations -/

/-- What an operation leaves is a part of what was to be read. -/
lemma Operation.within_run (op : Operation α) (i : Input) :
    Within i.pending (fun _ => []) (op.run i) := by
  cases op with
  | readLine => exact within_readLine i
  | skipAny skipped => exact within_skipAny i skipped
  | skipTrivia skipped => exact within_skipTrivia i skipped
  | readToken extra => exact within_readWhile i _
  | readUntil ending dropComments => exact within_readUntil i ending dropComments
  | readList closing => exact (frugal.readList closing).run i
  | readPair default? requireQuotes extra =>
    exact (frugal.readPair default? requireQuotes extra).run i

/-- An operation fails because of what it reads, unless the stream has been closed. -/
lemma Operation.unclosed_run (op : Operation α) (hi : i.isClosed = false) :
    Unclosed (op.run i) := by
  cases op with
  | readLine => exact unclosed_readLine hi
  | skipAny skipped => exact unclosed_skipAny hi skipped
  | skipTrivia skipped => exact unclosed_skipTrivia hi skipped
  | readToken extra => exact unclosed_readWhile hi _
  | readUntil ending dropComments => exact unclosed_readUntil hi ending dropComments
  | readList closing => exact (blamesText_readList closing).run hi
  | readPair default? requireQuotes extra =>
    exact (blamesText_readPair default? requireQuotes extra).run hi

/-- **Every operation comes to an end on every input**, whatever has been pushed back: with a value,
or with a fault of the text, if the stream has not been closed.  The readers that operations are
made of are functions by recursion on how much is still to be read, so that none goes on for ever.
What is left to be read is a part of what was to be read, in its order.  Nothing comes in addition,
for the sign that a pair without a name is read with is taken by the operation that puts it in. -/
theorem Operation.run_ends (op : Operation α) (i : Input) :
    ∃ j, j.pending <+ i.pending ∧
      ((∃ a, op.run i = .ok a j) ∨
        ∃ fault, op.run i = .error fault j ∧ (fault = .closed → i.isClosed = true)) := by
  have hwithin := op.within_run i
  cases hrun : op.run i with
  | ok a j =>
    rw [hrun] at hwithin
    exact ⟨j, hwithin, .inl ⟨a, rfl⟩⟩
  | error fault j =>
    rw [hrun] at hwithin
    refine ⟨j, hwithin, .inr ⟨fault, rfl, fun hfault => ?_⟩⟩
    by_contra hi
    exact (op.unclosed_run (by simpa using hi)).of_error hrun hfault

end Stencil.Input
