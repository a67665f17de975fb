import Stencil.Proofs.Value.Strings

/-!
# What values are shown with

The literal of a value is made of a few characters that values are shown with, `formCharacters`, and
of printable characters of the texts within the value (`Value.forall_mem_literal`): within a
collection texts are quoted, and quoting spells by its code whatever is not printable.  So the text
of a value has no other characters than these and those of its texts (`Value.forall_mem_text`), and
one that is not printable can enter it in one way, as a part of a value that is itself a text
(`Value.notMem_text_of_unprintable`).

The statements are about any class of characters that those of `formCharacters` belong to.
-/

namespace Stencil

/-- The characters that values are shown with, whatever texts are within them. -/
def formCharacters : Text :=
  ['0', '1', '2', '3', '4', '5', '6', '7', '8', '9', 'a', 'b', 'c', 'd', 'e', 'f', 'i', 'l', 'n',
   'o', 'r', 's', 't', 'u', 'x', 'F', 'N', 'T', 'U', '\\', '\'', '"', '(', ')', '[', ']', '{', '}',
   ',', ':', ' ', '+', '-', '.']

/-- The characters that integers are written with. -/
def integerCharacters : Text := ['-', '0', '1', '2', '3', '4', '5', '6', '7', '8', '9']

lemma integerCharacters_subset : integerCharacters ⊆ formCharacters := by decide

/-! ## Digits -/

/-- Numbers are written with digits. -/
lemma Text.forall_mem_toDigits {P : Char → Prop} {base : Nat} (hpos : 0 < base)
    (hP : ∀ d < base, P d.digitChar) (n : Nat) : ∀ c ∈ Nat.toDigits base n, P c := by
  -- The digits are put in front of those there are already, so these are part of the induction.
  have hcore : ∀ fuel n digits, (∀ c ∈ digits, P c) →
      ∀ c ∈ Nat.toDigitsCore base fuel n digits, P c := by
    intro fuel
    induction fuel with
    | zero => exact fun n digits h => h
    | succ fuel ih =>
      intro n digits h
      have hnext : ∀ c ∈ (n % base).digitChar :: digits, P c :=
        List.forall_mem_cons.2 ⟨hP _ (Nat.mod_lt n hpos), h⟩
      rw [Nat.toDigitsCore]
      split
      · exact hnext
      · exact ih _ _ hnext
  exact hcore _ _ _ (List.forall_mem_nil _)

lemma Integer.forall_mem_write {P : Char → Prop} (hP : ∀ c ∈ integerCharacters, P c) (n : Int) :
    ∀ c ∈ Integer.write n, P c := by
  have hdigit : ∀ d < 10, d.digitChar ∈ integerCharacters := by decide
  have hdigits := Text.forall_mem_toDigits (by decide) fun d hd => hP _ (hdigit d hd)
  cases n with
  | ofNat n => exact hdigits n
  | negSucc n => exact List.forall_mem_cons.2 ⟨hP _ (by decide), hdigits (n + 1)⟩

section Forms

variable {P : Char → Prop} (hP : ∀ c ∈ formCharacters, P c)

include hP

lemma forall_mem_form {t : Text} (ht : t ⊆ formCharacters) : ∀ c ∈ t, P c :=
  fun c hc => hP c (ht hc)

namespace Text

lemma forall_mem_decimal (n : Nat) : ∀ c ∈ Nat.toDigits 10 n, P c := by
  have hdigit : ∀ d < 10, d.digitChar ∈ formCharacters := by decide
  exact forall_mem_toDigits (by decide) (fun d hd => hP _ (hdigit d hd)) n

lemma forall_mem_replicate_zero (n : Nat) : ∀ c ∈ List.replicate n '0', P c := by
  intro c hc
  rw [List.eq_of_mem_replicate hc]
  exact hP '0' (by decide)

lemma forall_mem_hex (width code : Nat) : ∀ c ∈ hex width code, P c := by
  have hdigit : ∀ d < 16, d.digitChar ∈ formCharacters := by decide
  have hdigits := forall_mem_toDigits (by decide) (fun d hd => hP _ (hdigit d hd)) code
  exact List.forall_mem_append.2 ⟨forall_mem_replicate_zero hP _, hdigits⟩

/-! ## Quoted texts -/

omit hP in
lemma quoteFor_mem (t : Text) : quoteFor t ∈ formCharacters := by
  unfold quoteFor
  split <;> decide

/-- A character is spelled as it is if it is printable, and otherwise by its code. -/
lemma forall_mem_escapeChar {quote : Char} (hquote : P quote) {c : Char}
    (hc : isPrintable c = true → P c) : ∀ d ∈ escapeChar quote c, P d := by
  have hslash : P '\\' := hP _ (by decide)
  have hcode : ∀ (mark : Char) (width : Nat), mark ∈ formCharacters →
      ∀ d ∈ '\\' :: mark :: hex width c.toNat, P d := fun mark width hmark =>
    List.forall_mem_cons.2
      ⟨hslash, List.forall_mem_cons.2 ⟨hP _ hmark, forall_mem_hex hP width c.toNat⟩⟩
  have hnamed : ∀ mark : Char, mark ∈ formCharacters → ∀ d ∈ ['\\', mark], P d := fun mark hmark =>
    List.forall_mem_cons.2 ⟨hslash, List.forall_mem_singleton.2 (hP _ hmark)⟩
  unfold escapeChar
  split_ifs with hself _ _ _ hprintable
  · rcases hself with rfl | rfl
    · exact List.forall_mem_cons.2 ⟨hslash, List.forall_mem_singleton.2 hquote⟩
    · exact hnamed _ (by decide)
  · exact hnamed _ (by decide)
  · exact hnamed _ (by decide)
  · exact hnamed _ (by decide)
  · exact List.forall_mem_singleton.2 (hc hprintable)
  · exact hcode _ _ (by decide)
  · exact hcode _ _ (by decide)
  · exact hcode _ _ (by decide)

lemma forall_mem_quoted {t : Text} (ht : ∀ c ∈ t, isPrintable c = true → P c) :
    ∀ c ∈ quoted t, P c := by
  have hquote : P (quoteFor t) := hP _ (quoteFor_mem t)
  have hinner : ∀ c ∈ t.flatMap (escapeChar (quoteFor t)), P c := by
    intro c hc
    obtain ⟨d, hd, hc⟩ := List.mem_flatMap.1 hc
    exact forall_mem_escapeChar hP hquote (ht d hd) c hc
  simpa [quoted, hquote, or_imp, forall_and] using hinner

end Text

/-! ## Numbers -/

namespace Binary64

open Text

lemma forall_mem_writeExponent (e : Int) : ∀ c ∈ writeExponent e, P c := by
  have hdigits := forall_mem_decimal hP e.natAbs
  refine List.forall_mem_cons.2 ⟨by split <;> exact hP _ (by decide), ?_⟩
  split
  · exact List.forall_mem_cons.2 ⟨hP _ (by decide), hdigits⟩
  · exact hdigits

lemma forall_mem_layOut {digits : Text} (hd : ∀ c ∈ digits, P c) (place : Int) :
    ∀ c ∈ layOut digits place, P c := by
  have hzero : P '0' := hP _ (by decide)
  have hpoint : P '.' := hP _ (by decide)
  have hexponent : ∀ c ∈ 'e' :: writeExponent place, P c :=
    List.forall_mem_cons.2 ⟨hP _ (by decide), forall_mem_writeExponent hP place⟩
  unfold layOut
  split
  · split
    · have hzeros := forall_mem_replicate_zero hP (-place - 1).toNat
      exact List.forall_mem_cons.2 ⟨hzero, List.forall_mem_cons.2
        ⟨hpoint, List.forall_mem_append.2 ⟨hzeros, hd⟩⟩⟩
    · have hpadded : ∀ c ∈ digits ++ List.replicate (place.toNat + 1 - digits.length) '0', P c :=
        List.forall_mem_append.2 ⟨hd, forall_mem_replicate_zero hP _⟩
      refine List.forall_mem_append.2
        ⟨fun c hc => hpadded c (List.mem_of_mem_take hc), List.forall_mem_cons.2 ⟨hpoint, ?_⟩⟩
      split
      · exact List.forall_mem_singleton.2 hzero
      · exact fun c hc => hpadded c (List.mem_of_mem_drop hc)
  · split
    · simp
    · obtain ⟨hc, -⟩ := List.forall_mem_cons.1 hd
      exact List.forall_mem_cons.2 ⟨hc, hexponent⟩
    · obtain ⟨hc, hrest⟩ := List.forall_mem_cons.1 hd
      exact List.forall_mem_cons.2 ⟨hc, List.forall_mem_cons.2
        ⟨hpoint, List.forall_mem_append.2 ⟨hrest, hexponent⟩⟩⟩

lemma forall_mem_write (x : Binary64) : ∀ c ∈ x.write, P c := by
  cases x with
  | notANumber => exact forall_mem_form hP (by decide)
  | infinite negative =>
    cases negative
    · exact forall_mem_form hP (by decide)
    · exact forall_mem_form hP (by decide)
  | finite negative m e =>
    have hbody : ∀ c ∈ (if m = 0 then ['0', '.', '0'] else
        layOut (dropTrailingZeros (Nat.toDigits 10 (shortest m e).1))
          ((shortest m e).2 + (Nat.toDigits 10 (shortest m e).1).length - 1)), P c := by
      split
      · exact forall_mem_form hP (by decide)
      · refine forall_mem_layOut hP (fun c hc => ?_) _
        rw [dropTrailingZeros, List.mem_reverse] at hc
        have hmem := (List.dropWhile_sublist _).subset hc
        exact forall_mem_decimal hP _ c (List.mem_reverse.1 hmem)
    simp only [write]
    split
    · exact List.forall_mem_cons.2 ⟨hP _ (by decide), hbody⟩
    · exact hbody

end Binary64

/-! ## Values -/

namespace Value

open Text

/-- Pieces with commas between them, as all collections are shown. -/
lemma forall_mem_commaJoin {parts : List Text} (hparts : ∀ t ∈ parts, ∀ c ∈ t, P c) :
    ∀ c ∈ commaJoin parts, P c := by
  have hcomma : P ',' := hP _ (by decide)
  have hspace : P ' ' := hP _ (by decide)
  unfold commaJoin
  induction parts with
  | nil => simp [join]
  | cons t rest ih =>
    obtain ⟨ht, hrest⟩ := List.forall_mem_cons.1 hparts
    cases rest with
    | nil => simpa [join] using ht
    | cons u rest =>
      refine List.forall_mem_append.2 ⟨List.forall_mem_append.2 ⟨ht, ?_⟩, ih hrest⟩
      exact List.forall_mem_cons.2 ⟨hcomma, List.forall_mem_singleton.2 hspace⟩

/-- Pieces between brackets. -/
lemma forall_mem_bracketed {o e : Char} (ho : o ∈ formCharacters) (he : e ∈ formCharacters)
    {t : Text} (ht : ∀ c ∈ t, P c) : ∀ c ∈ o :: t ++ [e], P c :=
  List.forall_mem_append.2
    ⟨List.forall_mem_cons.2 ⟨hP _ ho, ht⟩, List.forall_mem_singleton.2 (hP _ he)⟩

omit hP

mutual

/-- **What a literal is made of**: the characters that values are shown with, and printable
characters of the texts within the value. -/
theorem forall_mem_literal {P : Char → Prop} (hP : ∀ c ∈ formCharacters, P c) :
    (v : Value) → (∀ t ∈ v.strings, ∀ c ∈ t, isPrintable c = true → P c) → ∀ c ∈ v.literal, P c
  | .none, _ => forall_mem_form hP (by decide)
  | .bool true, _ => forall_mem_form hP (by decide)
  | .bool false, _ => forall_mem_form hP (by decide)
  | .int n, _ =>
    Integer.forall_mem_write (forall_mem_form hP integerCharacters_subset) n
  | .float x, _ => Binary64.forall_mem_write hP x
  | .str t, h => forall_mem_quoted hP (h t (List.mem_singleton_self t))
  | .list items, h =>
    forall_mem_bracketed hP (by decide) (by decide)
      (forall_mem_commaJoin hP (forall_mem_literals hP items h))
  | .tuple items, h => by
    have hitems := forall_mem_literals hP items h
    unfold literal
    split
    · rename_i part hpart
      have hp : ∀ c ∈ part, P c := hitems part (by rw [hpart]; exact List.mem_singleton_self part)
      have hcomma : ∀ c ∈ '(' :: part ++ [','], P c :=
        forall_mem_bracketed hP (by decide) (by decide) hp
      have hclosing : P ')' := hP _ (by decide)
      simpa [or_imp, forall_and, hclosing] using hcomma
    · exact forall_mem_bracketed hP (by decide) (by decide) (forall_mem_commaJoin hP hitems)
  | .dict entries, h =>
    forall_mem_bracketed hP (by decide) (by decide)
      (forall_mem_commaJoin hP (forall_mem_entryLiterals hP entries h))
  | .set items, h => by
    have hitems := forall_mem_literals hP items h
    unfold literal
    split
    · exact forall_mem_form hP (by decide)
    · exact forall_mem_bracketed hP (by decide) (by decide) (forall_mem_commaJoin hP hitems)

lemma forall_mem_literals {P : Char → Prop} (hP : ∀ c ∈ formCharacters, P c) :
    (items : List Value) → (∀ t ∈ allStrings items, ∀ c ∈ t, isPrintable c = true → P c) →
      ∀ t ∈ literals items, ∀ c ∈ t, P c
  | [], _ => by simp [literals]
  | v :: vs, h => by
    obtain ⟨hv, hvs⟩ := List.forall_mem_append.1 h
    exact List.forall_mem_cons.2 ⟨forall_mem_literal hP v hv, forall_mem_literals hP vs hvs⟩

lemma forall_mem_entryLiterals {P : Char → Prop} (hP : ∀ c ∈ formCharacters, P c) :
    (entries : List (Value × Value)) →
      (∀ t ∈ entryStrings entries, ∀ c ∈ t, isPrintable c = true → P c) →
        ∀ t ∈ entryLiterals entries, ∀ c ∈ t, P c
  | [], _ => by simp [entryLiterals]
  | (key, value) :: entries, h => by
    obtain ⟨hkey, h⟩ := List.forall_mem_append.1 h
    obtain ⟨hvalue, hrest⟩ := List.forall_mem_append.1 h
    have hsign : ∀ c ∈ ':' :: ' ' :: value.literal, P c :=
      List.forall_mem_cons.2 ⟨hP _ (by decide),
        List.forall_mem_cons.2 ⟨hP _ (by decide), forall_mem_literal hP value hvalue⟩⟩
    exact List.forall_mem_cons.2
      ⟨List.forall_mem_append.2 ⟨forall_mem_literal hP key hkey, hsign⟩,
        forall_mem_entryLiterals hP entries hrest⟩

end

include hP

/-- What the text of a value is made of: the characters that values are shown with, and those of the
texts within the value. -/
theorem forall_mem_text {v : Value} (h : ∀ t ∈ v.strings, ∀ c ∈ t, P c) : ∀ c ∈ v.text, P c := by
  have hliteral := forall_mem_literal hP v fun t ht c hc _ => h t ht c hc
  cases v with
  | none => simp
  | bool b => cases b <;> exact forall_mem_form hP (by decide)
  | str t => exact h t (List.mem_singleton_self t)
  | int n => exact hliteral
  | float x => exact hliteral
  | list items => exact hliteral
  | tuple items => exact hliteral
  | dict entries => exact hliteral
  | set items => exact hliteral

end Value

end Forms

/-! ## Unprintable characters -/

/-- The literal of a value has printable characters only. -/
lemma Value.isPrintable_of_mem_literal {c : Char} {v : Value} (h : c ∈ v.literal) :
    Text.isPrintable c = true :=
  forall_mem_literal (P := fun c => Text.isPrintable c = true) (List.all_eq_true.1 (by decide)) v
    (fun _ _ _ _ hprintable => hprintable) c h

/-- A character that is not printable enters the text of a value only as a part of a value that is a
text itself. -/
theorem Value.notMem_text_of_unprintable {c : Char} (hc : Text.isPrintable c = false) {v : Value}
    (hv : ∀ t, v = .str t → c ∉ t) : c ∉ v.text := by
  have hliteral : c ∉ v.literal := by
    intro hmem
    rw [isPrintable_of_mem_literal hmem] at hc
    cases hc
  -- Only the text of a text is not its literal.
  cases v with
  | none => simp
  | bool b =>
    have hb : (boolText b).all Text.isPrintable = true := by cases b <;> decide
    intro hmem
    rw [List.all_eq_true.1 hb c hmem] at hc
    cases hc
  | str t => exact hv t rfl
  | int n => exact hliteral
  | float x => exact hliteral
  | list items => exact hliteral
  | tuple items => exact hliteral
  | dict entries => exact hliteral
  | set items => exact hliteral

end Stencil
