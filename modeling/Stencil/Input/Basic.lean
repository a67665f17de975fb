import Stencil.Input.Fault
import Stencil.Text.Alphanumeric

/-!
# Inputs

The input that template source is read from, character by character.  Characters that were read
too far are pushed back and read again, last one first.  The text behind the pushed-back characters
is opened by the first read; a text can be opened any number of times, each time from its start,
whereas a stream is read once and is of no use after it has been closed.

## Contents

* `Input`, its `pending` text, and opening and closing.
* `Input.next` and `Input.unread`, the only operations that the rest of the reading is made of,
  with their effect on `pending`; `Input.readLine` alone also looks at where the pushed-back
  characters end.
* Runs of characters: `Input.readWhile`, `Input.readToken`, `Input.skipAny`.
-/

namespace Stencil

/-- Where the characters of an input come from. -/
inductive Origin where
  /-- A text, read from its start whenever it is opened. -/
  | text (all : Text)
  /-- A stream, which opening does not rewind and closing ends. -/
  | stream
  /-- A stream whose closing fails and changes nothing. -/
  | unclosable
  deriving DecidableEq, Repr

/-- An input. -/
structure Input where
  origin : Origin
  /-- Characters to be read again, the next one first. -/
  pushback : Text := []
  /-- Characters of the source not yet read. -/
  rest : Text
  isOpen : Bool := false
  isClosed : Bool := false
  /-- The target keywords allowed in output mappings. -/
  targets : List Text
  deriving DecidableEq, Repr

/-- Reading of an input. -/
abbrev Reading := EStateM InputFault Input

namespace Input

/-! ## Creation -/

/-- The target keywords allowed unless a host says otherwise. -/
def standardTargets : List Text :=
  ["attribute", "page", "pageSession", "session", "application", "el"].map String.toList

/-- A fresh input over a text. -/
def ofText (t : Text) : Input := { origin := .text t, rest := t, targets := standardTargets }

/-- A fresh input over a stream that holds a text. -/
def ofStream (closable : Bool) (t : Text) : Input :=
  { origin := if closable then .stream else .unclosable, rest := t, targets := standardTargets }

/-! ## Opening and closing -/

/-- Closes an input.  A text starts over at its next opening. -/
def close (i : Input) : Input :=
  if i.isOpen then
    match i.origin with
    | .text all => { i with isOpen := false, rest := all }
    | .stream => { i with isOpen := false, isClosed := true }
    | .unclosable => { i with isOpen := false }
  else i

/-- Opens an input, closing it first if it was open.  Pushed-back characters are forgotten. -/
def reopen (i : Input) : Input := { i.close with isOpen := true, pushback := [] }

/-! ## Single characters -/

/-- All that is still to be read. -/
def pending (i : Input) : Text := i.pushback ++ i.rest

/-- How much is still to be read. -/
def size (i : Input) : Nat := i.pushback.length + i.rest.length

theorem length_pending (i : Input) : i.pending.length = i.size := by
  simp [pending, size]

/-- The next character, or nothing at the end. -/
def next (i : Input) : EStateM.Result InputFault Input (Option Char) :=
  match i.pushback with
  | c :: pushback => .ok (some c) { i with pushback := pushback }
  | [] =>
    if i.isClosed then .error .closed { i with isOpen := true }
    else match i.rest with
      | [] => .ok none { i with isOpen := true }
      | c :: rest => .ok (some c) { i with rest := rest, isOpen := true }

/-- Pushes a character back. -/
def unread (c : Char) (i : Input) : Input := { i with pushback := c :: i.pushback }

/-- Pushes back what `next` gave; the end of the input needs no pushing back. -/
def unreadOption (c : Option Char) (i : Input) : Input :=
  match c with
  | some c => i.unread c
  | none => i

@[simp] theorem size_unread (c : Char) (i : Input) : (i.unread c).size = i.size + 1 := by
  simp [unread, size]
  omega

@[simp] theorem pending_unread (c : Char) (i : Input) : (i.unread c).pending = c :: i.pending := rfl

/-- Reading a character takes it from the front of what is pending. -/
theorem pending_of_next_some {i j : Input} {c : Char} (h : i.next = .ok (some c) j) :
    i.pending = c :: j.pending := by
  unfold next at h
  split at h
  · rename_i d pushback hp
    cases h
    simp [pending, hp]
  · rename_i hp
    split at h
    · simp at h
    · split at h
      · simp at h
      · rename_i d rest hr
        cases h
        simp [pending, hp, hr]

/-- At the end nothing is pending. -/
theorem pending_of_next_none {i j : Input} (h : i.next = .ok none j) :
    i.pending = [] ∧ j.pending = [] := by
  unfold next at h
  split at h
  · simp at h
  · rename_i hp
    split at h
    · simp at h
    · split at h
      · rename_i hr
        cases h
        simp [pending, hp, hr]
      · simp at h

theorem size_of_next_some {i j : Input} {c : Char} (h : i.next = .ok (some c) j) :
    j.size + 1 = i.size := by
  have := congrArg List.length (pending_of_next_some h)
  simp only [List.length_cons, length_pending] at this
  omega

theorem size_of_next_none {i j : Input} (h : i.next = .ok none j) : j.size = i.size := by
  obtain ⟨hi, hj⟩ := pending_of_next_none h
  rw [← length_pending, ← length_pending, hi, hj]

theorem size_of_next {i j : Input} {c : Option Char} (h : i.next = .ok c j) : j.size ≤ i.size := by
  cases c with
  | none => exact Nat.le_of_eq (size_of_next_none h)
  | some c =>
    have := size_of_next_some h
    omega

/-- Pushing back what was read leaves as much to read as before. -/
theorem size_unreadOption_of_next {i j : Input} {c : Option Char} (h : i.next = .ok c j) :
    (j.unreadOption c).size = i.size := by
  cases c with
  | none => exact size_of_next_none h
  | some c =>
    have := size_of_next_some h
    simp [unreadOption]
    omega

/-! ## Runs of characters -/

/-- The longest run of characters of a class; the character that ends it is pushed back. -/
def readWhile (p : Char → Bool) (i : Input) : EStateM.Result InputFault Input Text :=
  match _h : i.next with
  | .error e j => .error e j
  | .ok none j => .ok [] j
  | .ok (some c) j =>
    if p c then
      match readWhile p j with
      | .ok t k => .ok (c :: t) k
      | .error e k => .error e k
    else .ok [] (j.unread c)
termination_by i.size
decreasing_by
  have := size_of_next_some _h
  omega

/-- Letters, digits and the given further characters. -/
def readToken (extra : Text) (i : Input) : EStateM.Result InputFault Input Text :=
  i.readWhile fun c => Text.isAlphanumeric c || extra.contains c

/-- Skips the given characters. -/
def skipAny (skipped : Text) (i : Input) : EStateM.Result InputFault Input Unit :=
  match i.readWhile skipped.contains with
  | .ok _ j => .ok () j
  | .error e j => .error e j

/-- The whitespace that may stand between the parts of a construct. -/
def margins : Text := [' ', '\t', '\r', '\n']

end Input

end Stencil
