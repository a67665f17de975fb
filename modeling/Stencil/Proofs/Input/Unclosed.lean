import Stencil.Proofs.Input.Ready
import Stencil.Proofs.Input.Stepwise

/-!
# Faults of the text and faults of the stream

A reading can fail for two reasons: what it reads is not what it should be, or the stream it reads
from has been closed.  This file settles that the second never befalls an input that is not closed,
and that no reading closes one, from single characters (`unclosed_next`) up to pairs
(`blamesText_readPair`).

The first half goes by the recursion of each reader and says of its outcome that it is `Unclosed`;
what the reader calls is known by then, through patterns on the calls.  The second half is about
readings that are put together from others, for which it is settled step by step (`blamesText`).
-/

namespace Stencil.Input

variable {α β : Type} {i j : Input}

/-! ## Outcomes -/

/-- An outcome that no closed stream is to blame for. -/
def Unclosed : EStateM.Result InputFault Input α → Prop
  | .ok _ j => j.isClosed = false
  | .error fault _ => fault ≠ .closed

lemma Unclosed.of_ok {r : EStateM.Result InputFault Input α} {a : α} (hr : Unclosed r)
    (h : r = .ok a j) : j.isClosed = false := by
  subst h
  exact hr

lemma Unclosed.of_error {r : EStateM.Result InputFault Input α} {fault : InputFault}
    (hr : Unclosed r) (h : r = .error fault j) : fault ≠ .closed := by
  subst h
  exact hr

@[grind =] lemma unclosed_ok {a : α} :
    Unclosed (.ok a j : EStateM.Result InputFault Input α) ↔ j.isClosed = false := Iff.rfl

@[grind =] lemma unclosed_error {fault : InputFault} :
    Unclosed (.error fault j : EStateM.Result InputFault Input α) ↔ fault ≠ .closed := Iff.rfl

@[grind =] lemma isClosed_unread (c : Char) (i : Input) : (i.unread c).isClosed = i.isClosed := rfl

@[grind =] lemma isClosed_unreadOption (c : Option Char) (i : Input) :
    (i.unreadOption c).isClosed = i.isClosed := by cases c <;> rfl

/-! ## Readers

Each of them only passes on what the readers it calls come to, so that the cases of its definition
are settled by what is known of these.  No arithmetic is needed for it, and to look for some is slow
(`-linarith`). -/

lemma unclosed_next (hi : i.isClosed = false) : Unclosed i.next := by
  unfold next
  split
  · exact hi
  · rw [hi, if_neg Bool.false_ne_true]
    split <;> exact rfl

grind_pattern unclosed_next => i.next

lemma unclosed_readWhile (hi : i.isClosed = false) (p : Char → Bool) :
    Unclosed (i.readWhile p) := by
  fun_induction readWhile p i with grind -linarith

grind_pattern unclosed_readWhile => i.readWhile p

lemma unclosed_skipAny (hi : i.isClosed = false) (skipped : Text) :
    Unclosed (i.skipAny skipped) := by
  fun_cases skipAny skipped i with grind -linarith

lemma unclosed_readLine (hi : i.isClosed = false) : Unclosed i.readLine := by
  unfold readLine
  split
  · exact hi
  · rw [hi, if_neg Bool.false_ne_true]
    exact rfl

grind_pattern unclosed_readLine => i.readLine

lemma unclosed_readTo (hi : i.isClosed = false) (closing : Char) :
    Unclosed (i.readTo closing) := by
  fun_induction readTo closing i with grind -linarith

grind_pattern unclosed_readTo => i.readTo closing

lemma unclosed_readClosed (hi : i.isClosed = false) (name : Text) (closing : Char) :
    Unclosed (i.readClosed name closing) := by
  fun_cases readClosed name closing i with grind -linarith

grind_pattern unclosed_readClosed => i.readClosed name closing

lemma unclosed_readExactly (hi : i.isClosed = false) (t : Text) : Unclosed (readExactly t i) := by
  fun_induction readExactly t i with grind -linarith

grind_pattern unclosed_readExactly => readExactly t i

lemma unclosed_readThrough (hi : i.isClosed = false) (first : Char) (others : Text)
    {reader : CharReader} (hr : ∀ {i : Input}, i.isClosed = false → Unclosed (reader.read i))
    (before : Text) : Unclosed (readThrough first others reader before i) := by
  fun_induction readThrough first others reader before i with grind -linarith

lemma unclosed_readThrough_plain (hi : i.isClosed = false) (first : Char) (others before : Text) :
    Unclosed (readThrough first others (plainReader first) before i) :=
  unclosed_readThrough hi first others (fun hi => unclosed_readTo hi first) before

grind_pattern unclosed_readThrough_plain =>
  readThrough first others (plainReader first) before i

lemma unclosed_skipMarkup (hi : i.isClosed = false) : Unclosed i.skipMarkup := by
  fun_cases skipMarkup i with grind -linarith

grind_pattern unclosed_skipMarkup => i.skipMarkup

lemma unclosed_skipComment (hi : i.isClosed = false) (c : Char) : Unclosed (i.skipComment c) := by
  fun_cases skipComment c i with grind -linarith

grind_pattern unclosed_skipComment => i.skipComment c

lemma unclosed_skipTrivia (hi : i.isClosed = false) (skipped : Text) :
    Unclosed (i.skipTrivia skipped) := by
  fun_induction skipTrivia skipped i with grind -linarith

grind_pattern unclosed_skipTrivia => i.skipTrivia skipped

lemma unclosed_readItems (hi : i.isClosed = false) (closing : Text) (c : Option Char) :
    Unclosed (i.readItems closing c) := by
  fun_induction readItems closing c i with grind -linarith

lemma unclosed_readOutside (hi : i.isClosed = false) (closing : Char) :
    Unclosed (i.readOutside closing) := by
  fun_induction readOutside closing i with grind -linarith

grind_pattern unclosed_readOutside => i.readOutside closing

lemma unclosed_readToOutside (hi : i.isClosed = false) (closing : Char) :
    Unclosed (i.readToOutside closing) := by
  fun_cases readToOutside closing i with grind -linarith

lemma unclosed_readUntil (hi : i.isClosed = false) (ending : Text) (dropComments : Bool) :
    Unclosed (i.readUntil ending dropComments) := by
  have hreader : ∀ (c : Char) {i : Input}, i.isClosed = false →
      Unclosed ((if dropComments then outsideReader c else plainReader c).read i) := by
    intro c i hi
    cases dropComments with
    | true => exact unclosed_readToOutside hi c
    | false => exact unclosed_readTo hi c
  match ending with
  | [] => exact hi
  | [c] =>
    have hread := hreader c hi
    simp only [readUntil]
    split
    · rename_i h
      exact hread.of_ok h
    · rename_i h
      exact hread.of_error h
  | c :: d :: rest => exact unclosed_readThrough hi c (d :: rest) (hreader c) []

/-! ## Composed readings -/

/-- A reading that fails only because of what it reads, and does not close the stream. -/
structure BlamesText (x : Reading α) : Prop where
  run : ∀ {i : Input}, i.isClosed = false → Unclosed (x i)

protected lemma BlamesText.bind {x : Reading α} {f : α → Reading β} (hx : BlamesText x)
    (hf : ∀ a, BlamesText (f a)) : BlamesText (x >>= f) := by
  refine ⟨fun {i} hi => ?_⟩
  cases hrun : x i with
  | ok a j =>
    rw [bind_of_ok hrun]
    exact (hf a).run ((hx.run hi).of_ok hrun)
  | error fault j =>
    rw [bind_of_error hrun]
    exact (hx.run hi).of_error hrun

lemma blamesText_giveBack (c : Option Char) : BlamesText (giveBack c) :=
  ⟨fun hi => (isClosed_unreadOption c _).trans hi⟩

lemma blamesText_nextPart : BlamesText nextPart :=
  .bind ⟨fun hi => unclosed_skipTrivia hi _⟩ fun _ => ⟨unclosed_next⟩

lemma blamesText_readUnquoted (start : Text) : BlamesText (readUnquoted start) := by
  have hrest : ∀ t : Text, BlamesText (if t.getLast? = some '/' then do
      giveBack (some '/')
      return start ++ Text.trim t.dropLast
    else return start ++ t) := by
    intro t
    split
    · exact .bind (blamesText_giveBack _) fun _ => ⟨fun hi => hi⟩
    · exact ⟨fun hi => hi⟩
  refine .bind ⟨fun hi => unclosed_readToOutside hi _⟩ fun (t, found) => ?_
  cases found with
  | true => exact .bind (blamesText_giveBack _) fun _ => hrest t
  | false => exact hrest t

/-- The text is to blame for every step. -/
def blamesText : Stepwise where
  Holds _ x _ := BlamesText x
  pure _ := ⟨fun hi => hi⟩
  throw h := ⟨fun _ => h⟩
  bind := BlamesText.bind
  forget hx := hx
  targets hf := ⟨fun {i} hi => (hf i.targets).run hi⟩
  sign hf _ := .bind (blamesText_giveBack _) fun _ => .bind blamesText_nextPart hf
  nextPart := blamesText_nextPart
  giveBack := blamesText_giveBack
  readToken _ := ⟨fun hi => unclosed_readWhile hi _⟩
  readClosed name closing := ⟨fun hi => unclosed_readClosed hi name closing⟩
  readItems closing c := ⟨fun hi => unclosed_readItems hi closing c⟩
  readUnquoted := blamesText_readUnquoted

lemma blamesText_readList (closing : Text) : BlamesText (readList closing) :=
  blamesText.readList closing

lemma blamesText_readPair (default? : Option Text) (requireQuotes : Bool) (extra : Text) :
    BlamesText (readPair default? requireQuotes extra) :=
  blamesText.readPair default? requireQuotes extra

end Stencil.Input
