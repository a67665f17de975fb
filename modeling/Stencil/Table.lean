import Stencil.Text.Basic

/-!
# Tables

Registrations by name, oldest first.  Registering a name again replaces its entry in place.
-/

namespace Stencil

/-- Entries by name. -/
abbrev Table (α : Type) := List (Text × α)

namespace Table

variable {α : Type}

/-- The entry of a name. -/
def find? (name : Text) : Table α → Option α
  | [] => none
  | (n, entry) :: rest => if n = name then some entry else find? name rest

/-- Whether a name has an entry. -/
def contains (table : Table α) (name : Text) : Bool := (find? name table).isSome

/-- Gives a name an entry. -/
def insert (name : Text) (entry : α) : Table α → Table α
  | [] => [(name, entry)]
  | (n, e) :: rest => if n = name then (n, entry) :: rest else (n, e) :: insert name entry rest

/-- Removes the entry of a name. -/
def erase (name : Text) (table : Table α) : Table α := List.filter (fun row => row.1 != name) table

/-- The names that have entries, oldest first. -/
def names (table : Table α) : List Text := List.map Prod.fst table

/-- What is found under a name is an entry of the table. -/
theorem mem_of_find? {name : Text} {entry : α} {table : Table α}
    (h : find? name table = some entry) : (name, entry) ∈ table := by
  induction table with
  | nil => simp [find?] at h
  | cons row rest ih =>
    obtain ⟨n, e⟩ := row
    rw [find?] at h
    split at h
    · rename_i hn
      subst hn
      cases h
      exact List.mem_cons_self
    · exact List.mem_cons_of_mem _ (ih h)

/-- An entry is found under its name and changes no other. -/
theorem find?_insert (name other : Text) (entry : α) (table : Table α) :
    find? other (insert name entry table) =
      if name = other then some entry else find? other table := by
  induction table with
  | nil => rfl
  | cons row rest ih =>
    obtain ⟨n, e⟩ := row
    rw [insert]
    split
    · rename_i hn
      subst hn
      simp only [find?]
      split <;> rfl
    · rename_i hn
      simp only [find?, ih]
      split
      · rename_i ho
        subst ho
        rw [if_neg (fun h => hn h.symm)]
      · rfl

/-- A removed entry is not found, and the others are. -/
theorem find?_erase (name other : Text) (table : Table α) :
    find? other (erase name table) = if name = other then none else find? other table := by
  induction table with
  | nil => simp [erase, find?]
  | cons row rest ih =>
    obtain ⟨n, e⟩ := row
    unfold erase at ih ⊢
    rw [List.filter_cons]
    by_cases hn : n = name
    · subst hn
      simp only [bne_self_eq_false, Bool.false_eq_true, if_false, ih, find?]
      split <;> rfl
    · rw [if_pos (by simpa using hn)]
      simp only [find?, ih]
      split
      · rename_i ho
        subst ho
        rw [if_neg (fun h => hn h.symm)]
      · rfl

end Table

end Stencil
