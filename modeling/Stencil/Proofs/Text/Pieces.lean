import Mathlib.Data.List.DropRight
import Mathlib.Data.List.TakeWhile
import Mathlib.Tactic.Lemma
import Stencil.Text.Basic

/-!
# Trimming and splitting

What trimming leaves of a text, and what a text is split into at a separator.  A text that has no
characters of the class is not trimmed, and one that has no separator is one piece; texts without
the separator that are joined with it are the pieces of the whole (`pieces_join`).
-/

namespace Stencil.Text

/-! ## Trimming -/

section Trimming

variable {p : Char → Bool} {t : Text}

/-- A text without characters of a class has none of them to trim. -/
lemma trimWhere_eq_self (ht : ∀ c ∈ t, p c = false) : trimWhere p t = t := by
  have hstart : ∀ t : Text, (∀ c ∈ t, p c = false) → t.dropWhile p = t := by
    intro t ht
    cases t with
    | nil => rfl
    | cons c t => simp [ht c List.mem_cons_self]
  have hend : ∀ c ∈ t.reverse, p c = false := by
    intro c hc
    exact ht c (List.mem_reverse.1 hc)
  rw [trimWhere, hstart t ht, hstart t.reverse hend, List.reverse_reverse]

/-- Trimming takes nothing but characters of the class away. -/
lemma mem_trimWhere_or {c : Char} (hc : c ∈ t) : p c = true ∨ c ∈ trimWhere p t := by
  have hstart : ∀ u : Text, c ∈ u → p c = true ∨ c ∈ u.dropWhile p := by
    intro u hu
    rw [← List.takeWhile_append_dropWhile (p := p) (l := u)] at hu
    exact (List.mem_append.1 hu).imp_left List.mem_takeWhile_imp
  rw [trimWhere, List.mem_reverse]
  exact (hstart t hc).elim .inl fun h => hstart _ (List.mem_reverse.2 h)

/-- A text without whitespace has nothing to trim. -/
lemma trim_eq_self (ht : ∀ c ∈ t, isBlank c = false) : trim t = t := trimWhere_eq_self ht

/-- Trimming brings nothing in. -/
lemma trim_subset (t : Text) : trim t ⊆ t := by
  have hdrop : ∀ u : Text, u.dropWhile isBlank ⊆ u :=
    fun u => (List.dropWhile_sublist isBlank).subset
  intro c hc
  rw [trim, trimWhere, List.mem_reverse] at hc
  exact hdrop t (List.mem_reverse.1 (hdrop _ hc))

lemma trim_trim (t : Text) : trim (trim t) = trim t := by
  -- Trimming the end takes nothing off the start, so the first character stays one that is not
  -- blank.
  have hinitial : trim t <+: t.dropWhile isBlank :=
    List.rdropWhile_prefix isBlank (t.dropWhile isBlank)
  have hstart : (trim t).dropWhile isBlank = trim t := by
    rw [List.dropWhile_eq_self_iff]
    intro hlength
    rw [hinitial.getElem hlength]
    exact List.dropWhile_eq_self_iff.1 (List.dropWhile_idempotent _ _) _
  calc trim (trim t)
      = ((trim t).dropWhile isBlank).rdropWhile isBlank := rfl
    _ = trim t := by
        rw [hstart]
        exact List.rdropWhile_idempotent isBlank (t.dropWhile isBlank)

end Trimming

/-! ## Splitting -/

section Splitting

variable {separator : Char} {s : Text} (hs : separator ∉ s)

include hs

lemma forall_mem_bne : ∀ c ∈ s, (c != separator) = true := by
  intro c hc
  rw [bne_iff_ne]
  rintro rfl
  exact hs hc

lemma partition_of_notMem : partition separator s = (s, none) := by
  have hbne := forall_mem_bne hs
  rw [partition, List.dropWhile_eq_nil_iff.2 hbne, List.takeWhile_eq_self_iff.2 hbne]

lemma partition_append_cons (t : Text) :
    partition separator (s ++ separator :: t) = (s, some t) := by
  have hbne := forall_mem_bne hs
  rw [partition, List.dropWhile_append_of_pos hbne, List.takeWhile_append_of_pos hbne]
  simp

lemma pieces_of_notMem : pieces separator s = [s] := by
  induction s with
  | nil => rfl
  | cons c s ih =>
    obtain ⟨hc, hs⟩ := not_or.1 (mt List.mem_cons.2 hs)
    rw [pieces, if_neg (Ne.symm hc), ih hs]

lemma pieces_append_cons (t : Text) :
    pieces separator (s ++ separator :: t) = s :: pieces separator t := by
  induction s with
  | nil => rw [List.nil_append, pieces, if_pos rfl]
  | cons c s ih =>
    obtain ⟨hc, hs⟩ := not_or.1 (mt List.mem_cons.2 hs)
    rw [List.cons_append, pieces, if_neg (Ne.symm hc), ih hs]

end Splitting

/-- Joining with a separator and splitting at it gives the parts back that do not have it. -/
lemma pieces_join {separator : Char} {parts : List Text} (hne : parts ≠ [])
    (hparts : ∀ part ∈ parts, separator ∉ part) :
    pieces separator (join [separator] parts) = parts := by
  induction parts with
  | nil => exact absurd rfl hne
  | cons part rest ih =>
    obtain ⟨hpart, hrest⟩ := List.forall_mem_cons.1 hparts
    cases rest with
    | nil => exact pieces_of_notMem hpart
    | cons next rest =>
      have hjoin : join [separator] (part :: next :: rest) =
          part ++ separator :: join [separator] (next :: rest) := by simp [join]
      rw [hjoin, pieces_append_cons hpart, ih (List.cons_ne_nil _ _) hrest]

end Stencil.Text
