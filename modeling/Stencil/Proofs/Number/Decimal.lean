import Mathlib.Algebra.Group.Nat.Defs
import Mathlib.Data.List.Induction
import Stencil.Number.Integer
import Stencil.Proofs.Text.Alphanumeric
import Stencil.Proofs.Text.Pieces

/-!
# Integers are read as they are written

`Integer.write` and `Integer.read` are inverse to each other up to spelling.  An integer of no more
than `digitLimit` digits is read back from its own text (`Integer.read_write`), and whatever text is
read, its integer has no more digits than that (`Integer.natAbs_lt_of_read`).  So reading, computing
with something that does not grow, and writing again can be repeated without end.

A text that is read is made of few characters (`Integer.forall_mem_of_read`), none of which is a
letter of a keyword or an operator.
-/

namespace Stencil

namespace Text

/-! ## Characters of digits -/

/-- The code points of digits. -/
def digitCodes : List Nat := zeros.flatMap (List.range' · 10)

lemma toNat_mem_digitCodes {c : Char} (hc : isDigit c = true) : c.toNat ∈ digitCodes := by
  obtain ⟨v, hv⟩ := Option.isSome_iff_exists.1 hc
  obtain ⟨z, hz, -⟩ := Option.map_eq_some_iff.1 hv
  have hrange := List.find?_some hz
  rw [decide_eq_true_eq] at hrange
  exact List.mem_flatMap.2 ⟨z, List.mem_of_find?_eq_some hz, List.mem_range'_1.2 hrange⟩

/-- No digit is whitespace. -/
lemma isBlank_of_isDigit {c : Char} (hc : isDigit c = true) : isBlank c = false := by
  have hcodes : ∀ n ∈ digitCodes, isBlank (Char.ofNat n) = false := by decide +kernel
  have hblank := hcodes c.toNat (toNat_mem_digitCodes hc)
  rwa [Char.ofNat_toNat] at hblank

/-- A character that is no digit is another one than a digit. -/
lemma ne_of_isDigit {c d : Char} (hc : isDigit c = true) (hd : isDigit d = false) : c ≠ d := by
  rintro rfl
  rw [hc] at hd
  cases hd

end Text

namespace Integer

/-! ## Numbers and digits -/

lemma ofDigits_append_singleton (digits : Text) (c : Char) :
    ofDigits (digits ++ [c]) = 10 * ofDigits digits + (Text.digitValue? c).getD 0 := by
  rw [ofDigits, List.foldl_append]
  rfl

lemma ofDigits_lt (digits : Text) : ofDigits digits < 10 ^ digits.length := by
  induction digits using List.reverseRecOn with
  | nil => decide
  | append_singleton digits c ih =>
    have hc : (Text.digitValue? c).getD 0 < 10 := by
      cases hvalue : Text.digitValue? c with
      | none => decide
      | some v => exact Text.digitValue?_lt hvalue
    rw [ofDigits_append_singleton, List.length_append, List.length_singleton, Nat.pow_succ]
    omega

lemma digitValue?_of_mem_toDigits {n : Nat} {c : Char} (hc : c ∈ Nat.toDigits 10 n) :
    Text.digitValue? c = some (c.toNat - 48) := by
  have hascii := Nat.isDigit_of_mem_toDigits (by decide) (by decide) hc
  obtain ⟨hlow, hhigh⟩ : 48 ≤ c.toNat ∧ c.toNat ≤ 57 := by
    simpa [Char.isDigit, UInt32.le_iff_toNat_le] using hascii
  exact Text.digitValue?_of_ascii hlow (by omega)

lemma isDigit_of_mem_toDigits {n : Nat} {c : Char} (hc : c ∈ Nat.toDigits 10 n) :
    Text.isDigit c = true := by
  rw [Text.isDigit, digitValue?_of_mem_toDigits hc]
  rfl

lemma ofDigits_toDigits (n : Nat) : ofDigits (Nat.toDigits 10 n) = n := by
  calc ofDigits (Nat.toDigits 10 n)
      = Nat.ofDigitChars 10 (Nat.toDigits 10 n) 0 := by
        rw [ofDigits, Nat.ofDigitChars_eq_foldl]
        refine List.foldl_ext _ _ _ fun m c hc => ?_
        rw [digitValue?_of_mem_toDigits hc]
        rfl
    _ = n := Nat.ofDigitChars_ten_toDigits

/-! ## Reading digits -/

section Digits

variable {digits : Text} (hne : digits ≠ []) (hdigits : ∀ c ∈ digits, Text.isDigit c = true)
  (hlength : digits.length ≤ digitLimit)

include hne hdigits hlength

/-- A text that is digits apart from its sign. -/
lemma read_of_splitSign {t : Text} {negative : Bool}
    (htrim : Text.trimWhere isMargin t = t) (hsign : splitSign t = (negative, digits)) :
    read t = .ok (if negative then -(ofDigits digits : Int) else ofDigits digits) := by
  have hrun : digits.takeWhile isNumeral = digits :=
    List.takeWhile_eq_self_iff.2 fun c hc => by rw [isNumeral, hdigits c hc, Bool.true_or]
  have hfilter : digits.filter Text.isDigit = digits := List.filter_eq_self.2 hdigits
  have hunderscore : '_' ∉ digits := fun hmem => Text.ne_of_isDigit (hdigits _ hmem) rfl rfl
  have hpieces : (Text.pieces '_' digits).any List.isEmpty = false := by
    rw [Text.pieces_of_notMem hunderscore]
    simpa using hne
  simp only [read, htrim, hsign, hrun, hfilter, hpieces, Bool.false_eq_true, if_false,
    if_neg (Nat.not_lt.2 hlength), Nat.lt_irrefl]

lemma read_digits : read digits = .ok (ofDigits digits : Int) := by
  have htrim : Text.trimWhere isMargin digits = digits :=
    Text.trimWhere_eq_self fun c hc => by
      rw [isMargin, Text.isBlank_of_isDigit (hdigits c hc), Bool.false_and]
  have hsign : splitSign digits = (false, digits) := by
    unfold splitSign
    split
    · exact absurd rfl (Text.ne_of_isDigit (hdigits '-' List.mem_cons_self) rfl)
    · exact absurd rfl (Text.ne_of_isDigit (hdigits '+' List.mem_cons_self) rfl)
    · rfl
  exact read_of_splitSign hne hdigits hlength htrim hsign

lemma read_minus_digits : read ('-' :: digits) = .ok (-(ofDigits digits : Int)) := by
  have htrim : Text.trimWhere isMargin ('-' :: digits) = '-' :: digits := by
    refine Text.trimWhere_eq_self (List.forall_mem_cons.2 ⟨rfl, fun c hc => ?_⟩)
    rw [isMargin, Text.isBlank_of_isDigit (hdigits c hc), Bool.false_and]
  exact read_of_splitSign hne hdigits hlength htrim rfl

end Digits

/-- **An integer is read back from its text**, if it is short enough to be read at all. -/
theorem read_write {n : Int} (hn : n.natAbs < 10 ^ digitLimit) : read (write n) = .ok n := by
  have hlength : ∀ m : Nat, m < 10 ^ digitLimit → (Nat.toDigits 10 m).length ≤ digitLimit :=
    fun m hm => (Nat.length_toDigits_le_iff (by decide) (by decide)).2 hm
  cases n with
  | ofNat m =>
    rw [write, read_digits Nat.toDigits_ne_nil (fun c => isDigit_of_mem_toDigits) (hlength m hn),
      ofDigits_toDigits]
    rfl
  | negSucc m =>
    rw [write, read_minus_digits Nat.toDigits_ne_nil (fun c => isDigit_of_mem_toDigits)
      (hlength (m + 1) hn), ofDigits_toDigits]
    rfl

/-! ## What can be read -/

section Read

variable {t : Text} {n : Int}

/-- A text that is read is a sign and a run of digits and underscores between margins, and not too
many of these are digits. -/
lemma run_of_read (h : read t = .ok n) : ∃ negative run,
    splitSign (Text.trimWhere isMargin t) = (negative, run) ∧ run ≠ [] ∧
      (∀ c ∈ run, isNumeral c = true) ∧ (run.filter Text.isDigit).length ≤ digitLimit ∧
      n.natAbs = ofDigits (run.filter Text.isDigit) := by
  cases hsign : splitSign (Text.trimWhere isMargin t) with | _ negative body
  simp only [read, hsign] at h
  split at h
  · cases h
  · rename_i hpieces
    split at h
    · cases h
    · rename_i hlimit
      split at h
      · cases h
      · rename_i hwhole
        -- The run of digits takes the whole body, for otherwise something follows it and nothing is
        -- read.
        have hrun : body.takeWhile isNumeral = body :=
          (List.takeWhile_prefix isNumeral).eq_of_length_le (Nat.not_lt.1 hwhole)
        rw [hrun] at h hpieces hlimit
        refine ⟨negative, body, rfl, ?_, List.takeWhile_eq_self_iff.1 hrun, Nat.not_lt.1 hlimit, ?_⟩
        · rintro rfl
          exact hpieces rfl
        · cases h
          split <;> simp

/-- What is read has no more digits than allowed. -/
lemma natAbs_lt_of_read (h : read t = .ok n) : n.natAbs < 10 ^ digitLimit := by
  obtain ⟨negative, run, -, -, -, hlimit, hn⟩ := run_of_read h
  calc n.natAbs = ofDigits (run.filter Text.isDigit) := hn
    _ < 10 ^ (run.filter Text.isDigit).length := ofDigits_lt _
    _ ≤ 10 ^ digitLimit := Nat.pow_le_pow_right (by decide) hlimit

lemma mem_splitSign {t : Text} {c : Char} (hc : c ∈ t) :
    c = '-' ∨ c = '+' ∨ c ∈ (splitSign t).2 := by
  unfold splitSign
  split
  · exact (List.mem_cons.1 hc).imp_right .inr
  · exact .inr (List.mem_cons.1 hc)
  · exact .inr (.inr hc)

/-- The code points of what a text can have that is read: whitespace, digits, signs, underscores. -/
def readCodes : List Nat :=
  Text.blankCodes ++ Text.digitCodes ++ ['-', '+', '_'].map Char.toNat

lemma forall_mem_of_read {P : Char → Prop} (hP : ∀ code ∈ readCodes, P (Char.ofNat code))
    (h : read t = .ok n) : ∀ c ∈ t, P c := by
  obtain ⟨negative, run, hsign, -, hrun, -, -⟩ := run_of_read h
  intro c hc
  -- A property of characters is not decidable over all of them; over the codes that can stand in a
  -- number it is.
  suffices hcode : c.toNat ∈ readCodes by
    rw [← Char.ofNat_toNat c]
    exact hP _ hcode
  rcases Text.mem_trimWhere_or (p := isMargin) hc with hmargin | htrim
  · rw [isMargin, Bool.and_eq_true] at hmargin
    simp [readCodes, Text.toNat_mem_blankCodes hmargin.1]
  · rcases mem_splitSign htrim with rfl | rfl | hmem
    · decide +kernel
    · decide +kernel
    · rw [hsign] at hmem
      have hnumeral := hrun c hmem
      rw [isNumeral, Bool.or_eq_true, beq_iff_eq] at hnumeral
      rcases hnumeral with hdigit | rfl
      · simp [readCodes, Text.toNat_mem_digitCodes hdigit]
      · decide +kernel

lemma ne_nil_of_read (h : read t = .ok n) : t ≠ [] := by
  rintro rfl
  cases h

end Read

end Integer

end Stencil
