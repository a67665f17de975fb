import Mathlib.Data.List.Infix
import Stencil.Template.Token

/-!
# Balanced texts and matching marks

A text is balanced in two marks if they match one another in it.  The search for the mark that
closes a token passes over a balanced text (`matchingEnd_balanced`), so that a token whose key is
balanced ends where it was meant to (`token?_balanced`).  The marks are single characters here,
as `Marks` collects them.
-/

namespace Stencil.Template

/-! ## Marks -/

/-- Marks of tokens that are three different characters, none of which escapes a mark. -/
structure Marks where
  start : Char
  opening : Char
  closing : Char
  start_ne_opening : start ≠ opening
  start_ne_closing : start ≠ closing
  opening_ne_closing : opening ≠ closing
  start_plain : isEscape start = false
  opening_plain : isEscape opening = false
  closing_plain : isEscape closing = false

/-- The marks as texts. -/
def Marks.delimiters (m : Marks) : Delimiters where
  start := [m.start]
  opening := [m.opening]
  closing := [m.closing]

/-- The marks of templates unless a host says otherwise. -/
def Marks.standard : Marks where
  start := '$'
  opening := '{'
  closing := '}'
  start_ne_opening := by decide
  start_ne_closing := by decide
  opening_ne_closing := by decide
  start_plain := by decide
  opening_plain := by decide
  closing_plain := by decide

lemma Marks.delimiters_standard : Marks.standard.delimiters = {} := rfl

/-! ## Balance -/

/-- A text in which two marks match: there are as many of each, and none is closed before it is
opened. -/
def Balanced (opening closing : Char) (t : Text) : Prop :=
  t.count opening = t.count closing ∧ ∀ u, u <+: t → u.count closing ≤ u.count opening

variable {o e : Char}

instance decidableBalanced (t : Text) : Decidable (Balanced o e t) :=
  decidable_of_iff (t.count o = t.count e ∧ ∀ u ∈ t.inits, u.count e ≤ u.count o) (by
    simp only [Balanced, List.mem_inits])

lemma balanced_nil : Balanced o e [] := by
  refine ⟨rfl, fun u hu => ?_⟩
  rw [List.prefix_nil.1 hu]
  exact Nat.le_refl _

/-- A text without marks is balanced. -/
lemma balanced_of_notMem {t : Text} (ho : o ∉ t) (he : e ∉ t) : Balanced o e t := by
  refine ⟨by rw [List.count_eq_zero.2 ho, List.count_eq_zero.2 he], fun u hu => ?_⟩
  rw [List.count_eq_zero.2 fun h => he (hu.subset h)]
  exact Nat.zero_le _

lemma Balanced.append {s t : Text} (hs : Balanced o e s) (ht : Balanced o e t) :
    Balanced o e (s ++ t) := by
  refine ⟨by rw [List.count_append, List.count_append, hs.1, ht.1], fun u hu => ?_⟩
  rcases List.prefix_or_prefix_of_prefix hu (List.prefix_append s t) with hu' | ⟨v, rfl⟩
  · exact hs.2 u hu'
  · have hv : v <+: t := (List.prefix_append_right_inj s).1 hu
    rw [List.count_append, List.count_append, hs.1]
    exact Nat.add_le_add_left (ht.2 v hv) _

/-! ## Matching -/

/-- The search for a closing mark, one character at a time. -/
lemma matchingEnd_cons (depth : Nat) (c : Char) (t : Text) :
    matchingEnd [o] [e] depth (c :: t) =
      if c = o then (matchingEnd [o] [e] (depth + 1) t).map fun (b, a) => (c :: b, a)
      else if c = e then
        if depth = 0 then some ([], t)
        else (matchingEnd [o] [e] (depth - 1) t).map fun (b, a) => (c :: b, a)
      else (matchingEnd [o] [e] depth t).map fun (b, a) => (c :: b, a) := by
  rw [matchingEnd]
  by_cases ho : c = o
  · simp [ho]
  · by_cases he : c = e
    · subst he
      by_cases hd : depth = 0 <;> simp [ho, Ne.symm ho, hd]
    · simp [ho, he, Ne.symm ho, Ne.symm he]

/-- The search passes over a text that closes no more than is open, and what is open after the text
has been added to the depth. -/
lemma matchingEnd_append (hoe : o ≠ e) {t : Text} {depth : Nat}
    (ht : ∀ u, u <+: t → u.count e ≤ depth + u.count o) (rest : Text) :
    matchingEnd [o] [e] depth (t ++ rest) =
      (matchingEnd [o] [e] (depth + t.count o - t.count e) rest).map
        fun (b, a) => (t ++ b, a) := by
  induction t generalizing depth with
  | nil => simp
  | cons c t ih =>
    have htail : ∀ u, u <+: t → (c :: u).count e ≤ depth + (c :: u).count o :=
      fun u hu => ht (c :: u) (List.prefix_cons_inj c |>.2 hu)
    rw [List.cons_append, matchingEnd_cons]
    by_cases ho : c = o
    · subst ho
      have hdepth : ∀ u, u <+: t → u.count e ≤ depth + 1 + u.count c := by
        intro u hu
        have h := htail u hu
        rw [List.count_cons_self, List.count_cons_of_ne hoe] at h
        omega
      rw [if_pos rfl, ih hdepth, Option.map_map, List.count_cons_self,
        List.count_cons_of_ne hoe, Nat.add_right_comm]
      rfl
    · by_cases he : c = e
      · subst he
        -- A closing mark has something to close, so the search does not end at it.
        have hfirst : 1 ≤ depth := by
          have h := htail [] (List.nil_prefix)
          rw [List.count_cons_self, List.count_cons_of_ne ho] at h
          simpa using h
        have hdepth : ∀ u, u <+: t → u.count c ≤ depth - 1 + u.count o := by
          intro u hu
          have h := htail u hu
          rw [List.count_cons_self, List.count_cons_of_ne ho] at h
          omega
        have hleft : depth - 1 + t.count o - t.count c =
            depth + t.count o - (t.count c + 1) := by omega
        rw [if_neg ho, if_pos rfl, if_neg (by omega), ih hdepth, Option.map_map,
          List.count_cons_self, List.count_cons_of_ne ho, hleft]
        rfl
      · have hdepth : ∀ u, u <+: t → u.count e ≤ depth + u.count o := by
          intro u hu
          have h := htail u hu
          rwa [List.count_cons_of_ne ho, List.count_cons_of_ne he] at h
        rw [if_neg ho, if_neg he, ih hdepth, Option.map_map, List.count_cons_of_ne ho,
          List.count_cons_of_ne he]
        rfl

/-- A balanced text is passed over, and the mark after it is the one that matches. -/
lemma matchingEnd_balanced (hoe : o ≠ e) {t : Text} (ht : Balanced o e t) (rest : Text) :
    matchingEnd [o] [e] 0 (t ++ e :: rest) = some (t, rest) := by
  have hprefix : ∀ u, u <+: t → u.count e ≤ 0 + u.count o := by
    intro u hu
    rw [Nat.zero_add]
    exact ht.2 u hu
  have hclosed : 0 + t.count o - t.count e = 0 := by
    have := ht.1
    omega
  rw [matchingEnd_append hoe hprefix, hclosed, matchingEnd_cons, if_neg (Ne.symm hoe), if_pos rfl,
    if_pos rfl]
  simp

/-! ## Tokens -/

/-- The first character of a text that has it, and what stands around it. -/
lemma cut?_singleton {c : Char} {before : Text} (hc : c ∉ before) (after : Text) :
    Text.cut? [c] (before ++ c :: after) = some (before, after) := by
  induction before with
  | nil => simp [Text.cut?]
  | cons d before ih =>
    obtain ⟨hd, hc⟩ : c ≠ d ∧ c ∉ before := by simpa using hc
    simp [Text.cut?, hd, ih hc]

/-- No token starts at another character. -/
lemma token?_of_ne (m : Marks) {c : Char} (hc : c ≠ m.start) (t : Text) :
    token? m.delimiters (c :: t) = none := by
  simp [token?, Marks.delimiters, Ne.symm hc]

lemma token?_nil (m : Marks) : token? m.delimiters [] = none := rfl

/-- A token whose keyword has no opening mark and whose key is balanced is taken apart as it was put
together. -/
lemma token?_balanced (m : Marks) {keyword key : Text} (hk : m.opening ∉ keyword)
    (hkey : Balanced m.opening m.closing key) (after : Text) :
    token? m.delimiters
        (m.start :: (keyword ++ m.opening :: (key ++ m.closing :: after))) =
      some { keyword, key, after } := by
  simp [token?, Marks.delimiters, cut?_singleton hk,
    matchingEnd_balanced m.opening_ne_closing hkey]

end Stencil.Template
