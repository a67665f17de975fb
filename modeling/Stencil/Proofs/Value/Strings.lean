import Mathlib.Tactic.Lemma
import Mathlib.Tactic.SplitIfs
import Stencil.Value.Display

/-!
# The strings within a value

A value holds texts at any depth, as members of collections and as keys.  `Value.strings` lists them
and `Value.mapStrings` changes them.  A printable character of one of them can be seen in the text
of the value (`Value.mem_text_of_mem_strings`), so a value whose text lacks such a character has it
nowhere, and a change of texts that concerns the character leaves the value alone.  An unprintable
one is shown by its code, and so by a backslash, unless the value is that text itself.
-/

namespace Stencil

/-! ## Shown texts -/

namespace Text

/-- Quoting does not hide printable characters. -/
lemma mem_quoted {c : Char} (hc : isPrintable c = true) {t : Text} (h : c ∈ t) : c ∈ quoted t := by
  have hescape : c ∈ escapeChar (quoteFor t) c := by
    unfold escapeChar
    split_ifs with hself hline hreturn htab
    · simp
    · exact absurd hc (by rw [hline]; decide)
    · exact absurd hc (by rw [hreturn]; decide)
    · exact absurd hc (by rw [htab]; decide)
    · simp
  have hinner : c ∈ t.flatMap (escapeChar (quoteFor t)) := List.mem_flatMap.2 ⟨c, h, hescape⟩
  simp [quoted, hinner]

/-- Quoting shows an unprintable character by its code, after a backslash. -/
lemma backslash_mem_quoted {c : Char} (hc : isPrintable c = false) {t : Text} (h : c ∈ t) :
    '\\' ∈ quoted t := by
  have hescape : '\\' ∈ escapeChar (quoteFor t) c := by
    unfold escapeChar
    split_ifs <;> simp_all
  have hinner : '\\' ∈ t.flatMap (escapeChar (quoteFor t)) :=
    List.mem_flatMap.2 ⟨c, h, hescape⟩
  simp [quoted, hinner]

lemma mem_join {c : Char} {separator t : Text} {parts : List Text} (ht : t ∈ parts) (hc : c ∈ t) :
    c ∈ join separator parts := by
  induction parts with
  | nil => cases ht
  | cons u rest ih =>
    cases rest with
    | nil =>
      obtain rfl : t = u := by simpa using ht
      simpa [join] using hc
    | cons w rest =>
      rw [join, List.mem_append, List.mem_append]
      rcases List.mem_cons.1 ht with rfl | hrest
      · exact .inl (.inl hc)
      · exact .inr (ih hrest)
      · simp

end Text

namespace Value

/-! ## Strings -/

mutual

/-- The texts within a value, its own if it is a text. -/
def strings : Value → List Text
  | .str t => [t]
  | .list items => allStrings items
  | .tuple items => allStrings items
  | .dict entries => entryStrings entries
  | .set items => allStrings items
  | _ => []

/-- The texts within the values of a list. -/
def allStrings : List Value → List Text
  | [] => []
  | v :: vs => strings v ++ allStrings vs

/-- The texts within the keys and values of a mapping. -/
def entryStrings : List (Value × Value) → List Text
  | [] => []
  | (key, value) :: entries => strings key ++ (strings value ++ entryStrings entries)

end

lemma mem_allStrings {t : Text} {items : List Value} :
    t ∈ allStrings items ↔ ∃ v ∈ items, t ∈ v.strings := by
  induction items with
  | nil => simp [allStrings]
  | cons v vs ih => simp [allStrings, ih]

mutual

/-- Changes all texts within a value. -/
def mapStrings (f : Text → Text) : Value → Value
  | .str t => .str (f t)
  | .list items => .list (mapAllStrings f items)
  | .tuple items => .tuple (mapAllStrings f items)
  | .dict entries => .dict (mapEntryStrings f entries)
  | .set items => .set (mapAllStrings f items)
  | v => v

/-- Changes all texts within the values of a list. -/
def mapAllStrings (f : Text → Text) : List Value → List Value
  | [] => []
  | v :: vs => mapStrings f v :: mapAllStrings f vs

/-- Changes all texts within the keys and values of a mapping. -/
def mapEntryStrings (f : Text → Text) : List (Value × Value) → List (Value × Value)
  | [] => []
  | (key, value) :: entries => (mapStrings f key, mapStrings f value) :: mapEntryStrings f entries

end

mutual

/-- A change that concerns no text within a value leaves it alone. -/
theorem mapStrings_eq_self {f : Text → Text} :
    (v : Value) → (∀ t ∈ v.strings, f t = t) → v.mapStrings f = v
  | .str t, h => congrArg Value.str (h t (List.mem_singleton_self t))
  | .list items, h => congrArg Value.list (mapAllStrings_eq_self items h)
  | .tuple items, h => congrArg Value.tuple (mapAllStrings_eq_self items h)
  | .dict entries, h => congrArg Value.dict (mapEntryStrings_eq_self entries h)
  | .set items, h => congrArg Value.set (mapAllStrings_eq_self items h)
  | .none, _ => rfl
  | .bool _, _ => rfl
  | .int _, _ => rfl
  | .float _, _ => rfl

lemma mapAllStrings_eq_self {f : Text → Text} :
    (items : List Value) → (∀ t ∈ allStrings items, f t = t) → mapAllStrings f items = items
  | [], _ => rfl
  | v :: vs, h => by
    obtain ⟨hv, hvs⟩ := List.forall_mem_append.1 h
    rw [mapAllStrings, mapStrings_eq_self v hv, mapAllStrings_eq_self vs hvs]

lemma mapEntryStrings_eq_self {f : Text → Text} :
    (entries : List (Value × Value)) → (∀ t ∈ entryStrings entries, f t = t) →
      mapEntryStrings f entries = entries
  | [], _ => rfl
  | (key, value) :: entries, h => by
    obtain ⟨hkey, h⟩ := List.forall_mem_append.1 h
    obtain ⟨hvalue, hrest⟩ := List.forall_mem_append.1 h
    rw [mapEntryStrings, mapStrings_eq_self key hkey, mapStrings_eq_self value hvalue,
      mapEntryStrings_eq_self entries hrest]

end

/-! ## What a value shows -/

lemma literals_eq_map (items : List Value) : literals items = items.map literal := by
  induction items with
  | nil => rfl
  | cons v vs ih => rw [literals, ih, List.map_cons]

mutual

/-- What the quoted form of a text within a value shows is in the literal of the value. -/
lemma mem_literal_of_mem_quoted {c : Char} :
    (v : Value) → (∃ t ∈ v.strings, c ∈ Text.quoted t) → c ∈ v.literal
  | .str t, ⟨_, ht, h⟩ => by
    obtain rfl := List.mem_singleton.1 ht
    exact h
  | .list items, h => by
    obtain ⟨part, hpart, h⟩ := exists_mem_literals items h
    simp [literal, commaJoin, Text.mem_join hpart h]
  | .tuple items, h => by
    obtain ⟨part, hpart, h⟩ := exists_mem_literals items h
    unfold literal
    split
    · rename_i only honly
      obtain rfl : part = only := by simpa [honly] using hpart
      simp [h]
    · simp [commaJoin, Text.mem_join hpart h]
  | .dict entries, h => by
    obtain ⟨part, hpart, h⟩ := exists_mem_entryLiterals entries h
    simp [literal, commaJoin, Text.mem_join hpart h]
  | .set items, h => by
    obtain ⟨part, hpart, h⟩ := exists_mem_literals items h
    unfold literal
    split
    · rename_i hnone
      rw [hnone] at hpart
      cases hpart
    · simp [commaJoin, Text.mem_join hpart h]

lemma exists_mem_literals {c : Char} :
    (items : List Value) → (∃ t ∈ allStrings items, c ∈ Text.quoted t) →
      ∃ part ∈ literals items, c ∈ part
  | v :: vs, ⟨t, ht, h⟩ => by
    rcases List.mem_append.1 ht with hv | hvs
    · exact ⟨v.literal, by simp [literals], mem_literal_of_mem_quoted v ⟨t, hv, h⟩⟩
    · obtain ⟨part, hpart, h⟩ := exists_mem_literals vs ⟨t, hvs, h⟩
      exact ⟨part, by simp [literals, hpart], h⟩

lemma exists_mem_entryLiterals {c : Char} :
    (entries : List (Value × Value)) → (∃ t ∈ entryStrings entries, c ∈ Text.quoted t) →
      ∃ part ∈ entryLiterals entries, c ∈ part
  | (key, value) :: entries, ⟨t, ht, h⟩ => by
    have hfirst : key.literal ++ ':' :: ' ' :: value.literal ∈
        entryLiterals ((key, value) :: entries) := by simp [entryLiterals]
    rcases List.mem_append.1 ht with hkey | ht
    · exact ⟨_, hfirst, by simp [mem_literal_of_mem_quoted key ⟨t, hkey, h⟩]⟩
    rcases List.mem_append.1 ht with hvalue | hrest
    · exact ⟨_, hfirst, by simp [mem_literal_of_mem_quoted value ⟨t, hvalue, h⟩]⟩
    · obtain ⟨part, hpart, h⟩ := exists_mem_entryLiterals entries ⟨t, hrest, h⟩
      exact ⟨part, by simp [entryLiterals, hpart], h⟩

end

/-- The text of a value that is no text itself shows the texts within it quoted. -/
lemma mem_text_of_mem_quoted {c : Char} {v : Value} (hv : ∀ t, v ≠ .str t) {t : Text}
    (ht : t ∈ v.strings) (h : c ∈ Text.quoted t) : c ∈ v.text := by
  cases v with
  | str s => exact absurd rfl (hv s)
  | none => cases ht
  | bool b => cases ht
  | int n => cases ht
  | float x => cases ht
  | list items => exact mem_literal_of_mem_quoted (.list items) ⟨t, ht, h⟩
  | tuple items => exact mem_literal_of_mem_quoted (.tuple items) ⟨t, ht, h⟩
  | dict entries => exact mem_literal_of_mem_quoted (.dict entries) ⟨t, ht, h⟩
  | set items => exact mem_literal_of_mem_quoted (.set items) ⟨t, ht, h⟩

/-- **What a value has in a text within it can be seen in its own text**, if it is printable. -/
theorem mem_text_of_mem_strings {c : Char} (hc : Text.isPrintable c = true) {v : Value} {t : Text}
    (ht : t ∈ v.strings) (h : c ∈ t) : c ∈ v.text := by
  by_cases hv : ∃ s, v = .str s
  · obtain ⟨s, rfl⟩ := hv
    obtain rfl : t = s := by simpa [strings] using ht
    exact h
  · exact mem_text_of_mem_quoted (fun s hs => hv ⟨s, hs⟩) ht (Text.mem_quoted hc h)

end Value

end Stencil
