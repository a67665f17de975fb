import Mathlib.Tactic.Lemma
import Stencil.Text.Alphanumeric
import Stencil.Text.Printable

/-!
# Alphanumeric characters are plain

An alphanumeric character is printable and is no whitespace.  Both are read off the property tables.
That two tables have no code point in common is decided by going through their runs side by side,
cutting the longer of two runs at the end of the shorter (`apart`).
-/

namespace Stencil.Text

/-! ## Comparing tables -/

/-- Whether two tables of run lengths have no code point in common, the first runs being inside or
outside as `inside` and `inside'` say.  `fuel` bounds the number of runs. -/
def apart : (fuel : Nat) → (runs : List Nat) → (inside : Bool) →
    (runs' : List Nat) → (inside' : Bool) → Bool
  | 0, _, _, _, _ => false
  | _ + 1, [], _, _, _ => true
  | _ + 1, _ :: _, _, [], _ => true
  | fuel + 1, m :: runs, inside, n :: runs', inside' =>
    (!(inside && inside') || min m n == 0) &&
      if m ≤ n then apart fuel runs (!inside) ((n - m) :: runs') inside'
      else apart fuel ((m - n) :: runs) inside runs' (!inside')

lemma not_inRuns_of_apart {fuel : Nat} {runs runs' : List Nat} {inside inside' : Bool}
    (h : apart fuel runs inside runs' inside' = true) {c : Nat}
    (hc : inRuns runs inside c = true) : inRuns runs' inside' c = false := by
  -- By induction on the fuel of the comparison, which takes the shorter of the two first runs off
  -- both tables.
  induction fuel generalizing runs inside runs' inside' c with
  | zero => simp [apart] at h
  | succ fuel ih =>
    match runs, runs' with
    | [], _ => simp [inRuns] at hc
    | _ :: _, [] => simp [inRuns]
    | m :: runs, n :: runs' =>
      simp only [apart, Bool.and_eq_true, Bool.or_eq_true, beq_iff_eq] at h
      obtain ⟨hfirst, hrest⟩ := h
      split at hrest
      · rename_i hle
        by_cases hcm : c < m
        · -- Both tables are within their first runs.
          rw [inRuns, if_pos hcm] at hc
          rw [inRuns, if_pos (by omega)]
          rcases hfirst with hout | hzero
          · simpa [hc] using hout
          · omega
        · rw [inRuns, if_neg hcm] at hc
          have hnext := ih hrest hc
          rw [inRuns] at hnext ⊢
          by_cases hcn : c < n
          · rw [if_pos hcn]
            rwa [if_pos (by omega)] at hnext
          · rw [if_neg hcn]
            rw [if_neg (by omega)] at hnext
            rwa [show c - m - (n - m) = c - n by omega] at hnext
      · rename_i hlt
        by_cases hcn : c < n
        · rw [inRuns, if_pos (by omega)] at hc
          rw [inRuns, if_pos hcn]
          rcases hfirst with hout | hzero
          · simpa [hc] using hout
          · omega
        · have hc' : inRuns ((m - n) :: runs) inside (c - n) = true := by
            rw [inRuns] at hc ⊢
            by_cases hcm : c < m
            · rw [if_pos (by omega)]
              rwa [if_pos hcm] at hc
            · rw [if_neg (by omega)]
              rw [if_neg hcm] at hc
              rwa [show c - n - (m - n) = c - m by omega]
          rw [inRuns, if_neg hcn]
          exact ih hrest hc'

/-! ## The classes -/

lemma apart_alphanumericRuns_unprintableRuns :
    apart 4000 alphanumericRuns false unprintableRuns false = true := by
  decide +kernel

/-- **Every alphanumeric character is printable.** -/
theorem isPrintable_of_isAlphanumeric {c : Char} (h : isAlphanumeric c = true) :
    isPrintable c = true := by
  have hascii : ∀ n < 128, isAlphanumeric (Char.ofNat n) = true →
      isPrintable (Char.ofNat n) = true := by decide +kernel
  by_cases hc : c.toNat < 128
  · have hofNat := hascii c.toNat hc
    rw [Char.ofNat_toNat] at hofNat
    exact hofNat h
  · rw [isAlphanumeric, if_neg hc] at h
    rw [isPrintable, if_neg (by omega),
      not_inRuns_of_apart apart_alphanumericRuns_unprintableRuns h]
    rfl

/-- The code points of whitespace. -/
def blankCodes : List Nat :=
  List.range' 9 5 ++ List.range' 28 5 ++ [0x85, 0xA0, 0x1680] ++ List.range' 0x2000 11 ++
    [0x2028, 0x2029, 0x202F, 0x205F, 0x3000]

lemma toNat_mem_blankCodes {c : Char} (h : isBlank c = true) : c.toNat ∈ blankCodes := by
  simp only [isBlank, Bool.or_eq_true, decide_eq_true_eq, beq_iff_eq] at h
  simp only [blankCodes, List.mem_append, List.mem_range'_1, List.mem_cons, List.not_mem_nil,
    or_false]
  omega

/-- **No alphanumeric character is whitespace.** -/
theorem isBlank_of_isAlphanumeric {c : Char} (h : isAlphanumeric c = true) : isBlank c = false := by
  have hcodes : ∀ n ∈ blankCodes, isAlphanumeric (Char.ofNat n) = false := by decide +kernel
  rw [Bool.eq_false_iff]
  intro hblank
  have hc := hcodes c.toNat (toNat_mem_blankCodes hblank)
  rw [Char.ofNat_toNat, h] at hc
  cases hc

/-- A character that is not alphanumeric is another one than a character that is. -/
lemma ne_of_isAlphanumeric {c d : Char} (hc : isAlphanumeric c = true)
    (hd : isAlphanumeric d = false) : c ≠ d := by
  rintro rfl
  rw [hc] at hd
  cases hd

end Stencil.Text
