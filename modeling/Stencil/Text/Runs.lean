import Stencil.Text.Basic

/-!
# Sets of characters by run lengths

Unicode properties are unions of a few hundred intervals.  This file owns the one representation
the property tables of `Text.Alphanumeric` and `Text.Printable` use: the lengths of the runs of
code points that lie, in turn, outside and inside the set, from code point zero on.
-/

namespace Stencil.Text

/-- Membership in the set whose run lengths are given; `inside` tells which kind the next run is. -/
def inRuns : List Nat → Bool → Nat → Bool
  | [], _, _ => false
  | n :: runs, inside, c => if c < n then inside else inRuns runs (!inside) (c - n)

/-- Past the listed runs nothing belongs to the set. -/
theorem inRuns_nil (inside : Bool) (c : Nat) : inRuns [] inside c = false := rfl

/-- A code point within the first run belongs to the set iff the run does. -/
theorem inRuns_of_lt {n : Nat} (runs : List Nat) (inside : Bool) {c : Nat} (h : c < n) :
    inRuns (n :: runs) inside c = inside := by
  simp [inRuns, h]

end Stencil.Text
