import Stencil.Text.Basic

/-!
# Decimal digits

Every script's decimal digits are ten consecutive code points (Unicode category Nd, version 14),
so a list of the zeros says which characters are digits and what each is worth.
-/

namespace Stencil.Text

/-! ## The zeros -/

/-- The code points of the digits zero, ASCII first. -/
def zeros : List Nat :=
  [48, 1632, 1776, 1984, 2406, 2534, 2662, 2790, 2918, 3046, 3174, 3302, 3430, 3558, 3664, 3792,
   3872, 4160, 4240, 6112, 6160, 6470, 6608, 6784, 6800, 6992, 7088, 7232, 7248, 42528, 43216,
   43264, 43472, 43504, 43600, 44016, 65296, 66720, 68912, 69734, 69872, 69942, 70096, 70384,
   70736, 70864, 71248, 71360, 71472, 71904, 72016, 72784, 73040, 73120, 92768, 92864, 93008,
   120782, 120792, 120802, 120812, 120822, 123200, 123632, 125264, 130032]

/-! ## Values -/

/-- What a decimal digit is worth: its distance from the zero of its script. -/
def digitValue? (c : Char) : Option Nat :=
  (zeros.find? fun z => decide (z ≤ c.toNat ∧ c.toNat < z + 10)).map (c.toNat - ·)

/-- A decimal digit of any script. -/
def isDigit (c : Char) : Bool := (digitValue? c).isSome

/-- A digit is worth less than ten. -/
theorem digitValue?_lt {c : Char} {v : Nat} (h : digitValue? c = some v) : v < 10 := by
  obtain ⟨z, hz, rfl⟩ := Option.map_eq_some_iff.1 h
  have := List.find?_some hz
  simp at this
  omega

/-- The ASCII digits have their usual values. -/
theorem digitValue?_of_ascii {c : Char} (h₁ : 48 ≤ c.toNat) (h₂ : c.toNat < 58) :
    digitValue? c = some (c.toNat - 48) := by
  simp [digitValue?, zeros, h₁, h₂]

end Stencil.Text
