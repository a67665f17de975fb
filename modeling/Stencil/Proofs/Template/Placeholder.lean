import Stencil.Proofs.Condition.Reading
import Stencil.Proofs.Number.Decimal
import Stencil.Proofs.Template.Nesting

/-!
# Messages are filled in one pass

A message is plain text with placeholders between it.  `Message` is this form, and every text has it
(`exists_message`).  The arguments are put in for the placeholders of the message
(`Message.filled`), and nothing else in the message changes.

What carries the induction is that a plain text in front of a placeholder does not begin one: the
brace that opens the placeholder is neither a digit nor the brace that would close another
(`formatMessage_append`).  An argument is never looked at, whatever it holds.  The main statement is
`run_resourceSource_message`.
-/

namespace Stencil.Template

/-! ## Placeholders -/

/-- A decimal number: digits of any script, and at least one. -/
structure IsNumber (digits : Text) : Prop where
  nonempty : digits ≠ []
  digit : ∀ c ∈ digits, Text.isDigit c = true

/-- The placeholder with a number. -/
def placeholder (digits : Text) : Text := '{' :: (digits ++ ['}'])

/-- A text in which no placeholder occurs. -/
def IsPlain (t : Text) : Prop := ∀ digits, IsNumber digits → ¬ placeholder digits <:+: t

section Placeholder

variable {t digits after : Text}

lemma mem_placeholder_opening (digits : Text) : '{' ∈ placeholder digits := List.mem_cons_self

lemma mem_placeholder_closing (digits : Text) : '}' ∈ placeholder digits := by simp [placeholder]

lemma placeholder?_eq_some_iff :
    placeholder? t = some (digits, after) ↔ IsNumber digits ∧ digits ++ '}' :: after = t := by
  constructor
  · intro h
    unfold placeholder? at h
    split at h
    · rename_i rest hdrop
      split at h
      · cases h
      · rename_i hempty
        obtain ⟨rfl, rfl⟩ := Prod.mk.inj (Option.some.inj h)
        refine ⟨⟨by simpa using hempty, fun c hc => List.mem_takeWhile_imp hc⟩, ?_⟩
        rw [← hdrop, List.takeWhile_append_dropWhile]
    · cases h
  · rintro ⟨⟨hne, hdigits⟩, rfl⟩
    have hclosing : Text.isDigit '}' = false := rfl
    have htake : (digits ++ '}' :: after).takeWhile Text.isDigit = digits := by
      rw [List.takeWhile_append_of_pos hdigits, List.takeWhile_cons_of_neg (by simp [hclosing]),
        List.append_nil]
    have hdrop : (digits ++ '}' :: after).dropWhile Text.isDigit = '}' :: after := by
      rw [List.dropWhile_append_of_pos hdigits, List.dropWhile_cons_of_neg (by simp [hclosing])]
    rw [placeholder?, hdrop]
    simp [htake, hne]

/-- The search at a character finds nothing if and only if no placeholder starts there. -/
lemma opened_eq_none_iff {c : Char} :
    (if c = '{' then placeholder? t else none) = none ↔
      ∀ digits, IsNumber digits → ¬ placeholder digits <+: c :: t := by
  constructor
  · rintro hnone digits hdigits ⟨after, hstart⟩
    obtain ⟨rfl, rfl⟩ : '{' = c ∧ digits ++ '}' :: after = t := by simpa [placeholder] using hstart
    rw [if_pos rfl, placeholder?_eq_some_iff.2 ⟨hdigits, rfl⟩] at hnone
    cases hnone
  · intro hstarts
    split
    · rename_i hc
      rw [Option.eq_none_iff_forall_ne_some]
      rintro ⟨digits, after⟩ hsome
      obtain ⟨hdigits, rfl⟩ := placeholder?_eq_some_iff.1 hsome
      exact hstarts digits hdigits ⟨after, by simp [placeholder, hc]⟩
    · rfl

/-- No placeholder starts in a text and goes on behind it if a brace opens there. -/
lemma prefix_of_prefix_append {s : Text} (hs : s ≠ []) (ht : ∀ c ∈ t.head?, c = '{')
    (hdigits : IsNumber digits) (h : placeholder digits <+: s ++ t) : placeholder digits <+: s := by
  rcases List.prefix_or_prefix_of_prefix h (List.prefix_append s t) with hstart | ⟨u, hu⟩
  · exact hstart
  · cases u with
    | nil => exact ⟨[], by rw [List.append_nil, ← hu, List.append_nil]⟩
    | cons d u =>
      obtain ⟨c, s, rfl⟩ := List.exists_cons_of_ne_nil hs
      -- What follows the text would be a digit of the placeholder or the brace that closes it.
      have hd : d = '{' := by
        obtain ⟨after, hafter⟩ := h
        rw [← hu, List.append_assoc, List.append_cancel_left_eq] at hafter
        exact ht d (by rw [← hafter]; rfl)
      have hmem : d ∈ digits ++ ['}'] := by
        have htail : digits ++ ['}'] = s ++ d :: u := (List.cons.inj hu).2.symm
        rw [htail]
        simp
      subst hd
      rcases List.mem_append.1 hmem with hdigit | hclosing
      · cases hdigits.digit _ hdigit
      · cases List.mem_singleton.1 hclosing

end Placeholder

/-! ## Messages -/

/-- A message: plain text, and placeholders between it. -/
inductive Message where
  | ending (t : Text) (plain : IsPlain t)
  | hole (before digits : Text) (plain : IsPlain before) (number : IsNumber digits)
      (rest : Message)

namespace Message

/-- The text of a message. -/
def text : Message → Text
  | .ending t _ => t
  | .hole before digits _ _ rest => before ++ (placeholder digits ++ rest.text)

/-- The message with the arguments put in for its placeholders.  A number that is too great stays as
it is. -/
def filled (arguments : List Text) : Message → Text
  | .ending t _ => t
  | .hole before digits _ _ rest =>
    before ++ ((arguments[Integer.ofDigits digits]?).getD (placeholder digits) ++
      rest.filled arguments)

end Message

section Decomposition

variable {c : Char} {t : Text}

/-- A character in front of a plain text is plain unless a placeholder starts there. -/
lemma IsPlain.cons (ht : IsPlain t)
    (hc : ∀ digits, IsNumber digits → ¬ placeholder digits <+: c :: t) : IsPlain (c :: t) := by
  intro digits hdigits hwithin
  rcases List.infix_cons_iff.1 hwithin with hstart | hwithin
  · exact hc digits hdigits hstart
  · exact ht digits hdigits hwithin

lemma isPlain_of_notMem {brace : Char} (hbrace : ∀ digits, brace ∈ placeholder digits)
    (ht : brace ∉ t) : IsPlain t := fun digits _ hwithin => ht (hwithin.subset (hbrace digits))

lemma isPlain_nil : IsPlain [] := isPlain_of_notMem mem_placeholder_opening List.not_mem_nil

/-- Every text is a message. -/
lemma exists_message (t : Text) : ∃ m : Message, m.text = t := by
  -- By induction on the length, as a placeholder takes several characters at once.
  induction hlength : t.length using Nat.strongRecOn generalizing t with
  | _ length ih =>
    cases t with
    | nil => exact ⟨.ending [] isPlain_nil, rfl⟩
    | cons c t =>
      subst hlength
      cases hopened : (if c = '{' then placeholder? t else none) with
      | none =>
        rw [opened_eq_none_iff] at hopened
        obtain ⟨m, rfl⟩ := ih t.length (Nat.lt_succ_self _) t rfl
        cases m with
        | ending t plain => exact ⟨.ending (c :: t) (plain.cons hopened), rfl⟩
        | hole before digits plain number rest =>
          refine ⟨.hole (c :: before) digits (plain.cons fun d hd hstart => ?_) number rest, rfl⟩
          exact hopened d hd (hstart.trans (List.prefix_append (c :: before) _))
      | some found =>
        obtain ⟨digits, after⟩ := found
        split at hopened
        · rename_i hc
          obtain ⟨number, rfl⟩ := placeholder?_eq_some_iff.1 hopened
          obtain ⟨m, hm⟩ := ih after.length (by simp; omega) after rfl
          exact ⟨.hole [] digits isPlain_nil number m, by simp [Message.text, placeholder, hm, hc]⟩
        · cases hopened

end Decomposition

/-! ## Filling -/

section Filling

variable (arguments : List Text)

lemma formatMessage_cons {c : Char} {t : Text}
    (h : ∀ digits, IsNumber digits → ¬ placeholder digits <+: c :: t) :
    formatMessage arguments (c :: t) = (c :: ·) <$> formatMessage arguments t := by
  rw [formatMessage]
  split
  · cases formatMessage arguments t <;> rfl
  · rename_i hopened
    rw [opened_eq_none_iff.2 h] at hopened
    cases hopened

/-- A plain text stays as it is, up to the end or to a placeholder. -/
lemma formatMessage_append {s t : Text} (hs : IsPlain s) (ht : ∀ c ∈ t.head?, c = '{') :
    formatMessage arguments (s ++ t) = (s ++ ·) <$> formatMessage arguments t := by
  induction s with
  | nil => cases h : formatMessage arguments t <;> simp [h, Functor.map, Except.map]
  | cons c s ih =>
    have hstarts : ∀ digits, IsNumber digits → ¬ placeholder digits <+: c :: (s ++ t) :=
      fun digits hdigits hstart => hs digits hdigits
        (prefix_of_prefix_append (List.cons_ne_nil c s) ht hdigits hstart).isInfix
    have hrest : IsPlain s := fun digits hdigits hwithin =>
      hs digits hdigits (hwithin.trans (List.suffix_cons c s).isInfix)
    rw [List.cons_append, formatMessage_cons arguments hstarts, ih hrest, Functor.map_map]
    rfl

/-- A placeholder gives way to the argument of its number. -/
lemma formatMessage_placeholder {digits : Text} (hdigits : IsNumber digits)
    (hlength : digits.length ≤ Integer.digitLimit) (t : Text) :
    formatMessage arguments (placeholder digits ++ t) =
      ((arguments[Integer.ofDigits digits]?).getD (placeholder digits) ++ ·) <$>
        formatMessage arguments t := by
  have hfound : placeholder? (digits ++ '}' :: t) = some (digits, t) :=
    placeholder?_eq_some_iff.2 ⟨hdigits, rfl⟩
  have hread := Integer.read_digits hdigits.nonempty hdigits.digit hlength
  have htext : placeholder digits ++ t = '{' :: (digits ++ '}' :: t) := by simp [placeholder]
  rw [htext, formatMessage]
  split
  · rename_i hopened
    rw [if_pos rfl, hfound] at hopened
    cases hopened
  · rename_i digits' after hopened
    rw [if_pos rfl, hfound] at hopened
    obtain ⟨rfl, rfl⟩ := Prod.mk.inj (Option.some.inj hopened)
    rw [hread]
    cases formatMessage arguments t <;> rfl

/-- The numbers of all placeholders can be read. -/
def Readable (t : Text) : Prop :=
  ∀ digits, IsNumber digits → placeholder digits <:+: t → digits.length ≤ Integer.digitLimit

lemma readable_of_length_le {t : Text} (ht : t.length ≤ Integer.digitLimit) : Readable t := by
  intro digits _ hwithin
  have hlength := hwithin.length_le
  simp only [placeholder, List.length_cons, List.length_append, List.length_nil] at hlength
  omega

/-- Formatting a message fills it. -/
lemma Message.formatMessage_text (m : Message) (hm : Readable m.text) :
    formatMessage arguments m.text = .ok (m.filled arguments) := by
  induction m with
  | ending t plain =>
    have happend := formatMessage_append arguments (t := []) plain (by simp)
    rw [List.append_nil] at happend
    rw [text, happend, formatMessage]
    simp [Functor.map, Except.map, filled]
  | hole before digits plain number rest ih =>
    have hdigits : digits.length ≤ Integer.digitLimit :=
      hm digits number ⟨before, rest.text, by simp [text]⟩
    have hrest : Readable rest.text := fun d hd hwithin =>
      hm d hd (hwithin.trans ⟨before ++ placeholder digits, [], by simp [text]⟩)
    rw [text, formatMessage_append arguments plain (by simp [placeholder]),
      formatMessage_placeholder arguments number hdigits, ih hrest]
    rfl

end Filling

/-! ## Resources -/

/-- The key of a message and its arguments, as a resource is asked for. -/
def messageKey (bundle key : Text) (arguments : List Text) : Text :=
  bundle ++ '.' :: Text.join [','] (key :: arguments)

/-- **A message is filled in one pass.**  Where a bundle has a message under a key, and arguments
are given, the value is the text of the message with every placeholder that has an argument replaced
by it, less the whitespace around it.  Placeholders whose numbers are too great stay, and so does
all other text.  Every text has the form of a message, and the arguments are put in as they are,
whatever they hold. -/
theorem run_resourceSource_message (bundle key : Text) (arguments : List Text) {entries : Entries}
    {message : Value} (hbundle : '.' ∉ bundle) (hkey : ',' ∉ key)
    (harguments : ∀ argument ∈ arguments, ',' ∉ argument) (hne : arguments ≠ []) (c : Context)
    (hentries : c.lookUp .resourceBundles bundle = .dict entries)
    (hmessage : Entries.get entries key = message) (hsome : message ≠ .none)
    (hreadable : Readable message.display) (level : Nat) :
    (∃ m : Message, m.text = message.display) ∧
      ∀ m : Message, m.text = message.display →
        ((resourceSource (messageKey bundle key arguments)).run (answer level)).run c =
          .ok (.str (m.filled (arguments.map Text.trim))) c := by
  refine ⟨exists_message _, fun m hm => ?_⟩
  -- The first dot ends the name of the bundle, and commas end the key and the arguments.
  have hsplit : Text.partition '.' (messageKey bundle key arguments) =
      (bundle, some (Text.join [','] (key :: arguments))) := Text.partition_append_cons hbundle _
  have hpieces : Text.pieces ',' (Text.join [','] (key :: arguments)) = key :: arguments :=
    Text.pieces_join (List.cons_ne_nil _ _) (List.forall_mem_cons.2 ⟨hkey, harguments⟩)
  have hformat := m.formatMessage_text (arguments.map Text.trim) (hm ▸ hreadable)
  rw [hm] at hformat
  let place : Condition.Place Context := ⟨answer level, c⟩
  have hread : place.Gives (Script.request (.read .resourceBundles bundle)) (.dict entries) := by
    rw [← hentries]
    exact run_scopeSource_answer .resourceBundles bundle level c
  show place.Gives (resourceSource (messageKey bundle key arguments)) _
  rw [resourceSource, hsplit]
  refine hread.bind ?_
  have hgiven : (arguments.map Text.trim).isEmpty = false := by simpa using hne
  simp only [hpieces, List.headD_cons, List.tail_cons, hmessage, hgiven, hformat,
    Bool.false_eq_true, if_false]
  rfl

/-- The message `{01}{0}: {{1}} {7}`. -/
def bracedMessage : Message :=
  .hole [] ['0', '1'] isPlain_nil ⟨by simp, List.all_eq_true.1 rfl⟩ <|
    .hole [] ['0'] isPlain_nil ⟨by simp, List.all_eq_true.1 rfl⟩ <|
      .hole [':', ' ', '{'] ['1'] (isPlain_of_notMem mem_placeholder_closing (by decide))
          ⟨by simp, List.all_eq_true.1 rfl⟩ <|
        .hole ['}', ' '] ['7'] (isPlain_of_notMem mem_placeholder_opening (by decide))
          ⟨by simp, List.all_eq_true.1 rfl⟩ (.ending [] isPlain_nil)

/-- A context with a bundle `m`, which has the message under `k`. -/
def messageContext : Context where
  scopes := { resourceBundles := [(.str ['m'], .dict [(.str ['k'], .str bracedMessage.text)])] }

/-- With the arguments `{1}` and `b` the message is `b{1}: {b} {7}`, whatever the first holds. -/
theorem run_resourceSource_message_braced :
    '.' ∉ ['m'] ∧ ',' ∉ ['k'] ∧ Readable bracedMessage.text ∧
      bracedMessage.text = "\x7b01\x7d\x7b0\x7d: \x7b\x7b1\x7d\x7d \x7b7\x7d".toList ∧
      ((resourceSource "m.k,\x7b1\x7d, b ".toList).run (answer 0)).run messageContext =
        .ok (.str "b\x7b1\x7d: \x7bb\x7d \x7b7\x7d".toList) messageContext := by
  have hreadable : Readable bracedMessage.text := readable_of_length_le (by decide)
  have hvalue := (run_resourceSource_message ['m'] ['k'] ["\x7b1\x7d".toList, " b ".toList]
    (by decide) (by decide) (by decide) (by decide) messageContext rfl rfl nofun hreadable 0).2
    bracedMessage rfl
  exact ⟨by decide, by decide, hreadable, rfl, hvalue⟩

end Stencil.Template
