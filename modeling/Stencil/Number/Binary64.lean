import Stencil.Text.Digit

/-!
# Binary floating point numbers

The 64-bit binary format as exact integers: a finite number is `significand * 2 ^ exponent` with at
most 53 bits of significand.  The library never computes with such numbers; it reads them from
decimal texts (rounding to nearest, ties to even) and writes the shortest decimal that reads back.

## Contents

* `Binary64.ofRatio` rounds a quotient of naturals.
* `Binary64.read?` reads decimal texts, the names of the infinities and of the non-number included.
* `Binary64.shortest` finds the fewest digits that read back; `Binary64.write` lays them out.
-/

namespace Stencil

/-- A number of the 64-bit binary format.  A finite one has its significand between `2 ^ 52` and
`2 ^ 53`, or the least exponent. -/
inductive Binary64 where
  | notANumber
  | infinite (negative : Bool)
  | finite (negative : Bool) (significand : Nat) (exponent : Int)
  deriving DecidableEq, Repr

namespace Binary64

/-! ## Powers -/

/-- A power of two. -/
def pow2 (n : Nat) : Nat := Nat.pow 2 n

/-- A power of ten. -/
def pow10 (n : Nat) : Nat := Nat.pow 10 n

/-! ## Rounding a quotient -/

/-- The least exponent. -/
def minExponent : Int := -1074

/-- The greatest exponent. -/
def maxExponent : Int := 971

/-- A quotient of naturals to the nearest natural, a half to the even neighbour. -/
def roundHalfEven (num den : Nat) : Nat :=
  let q := num / den
  let r := num % den
  if 2 * r < den then q
  else if 2 * r > den then q + 1
  else q + q % 2

/-- `num / (den * 2 ^ e)` as a quotient of naturals. -/
def scaleDown (num den : Nat) (e : Int) : Nat × Nat :=
  if 0 ≤ e then (num, den * pow2 e.toNat) else (num * pow2 (-e).toNat, den)

/-- The exponent at which a positive quotient has 53 bits before the point, but no less than the
least exponent. -/
def exponentFor (num den : Nat) : Int :=
  let guess : Int := (Nat.log2 num : Int) - Nat.log2 den - 52
  let (n, d) := scaleDown num den guess
  max minExponent (if n / d < pow2 52 then guess - 1 else guess)

/-- The number nearest to a quotient of naturals. -/
def ofRatio (negative : Bool) (num den : Nat) : Binary64 :=
  if num = 0 then .finite negative 0 minExponent
  else
    let e := exponentFor num den
    let (n, d) := scaleDown num den e
    let m := roundHalfEven n d
    let (m, e) := if m = pow2 53 then (pow2 52, e + 1) else (m, e)
    if e > maxExponent then .infinite negative else .finite negative m e

/-- The number nearest to `digits * 10 ^ exponent`.  Beyond 400 places the answer is known. -/
def ofDecimal (negative : Bool) (digits : Nat) (exponent : Int) : Binary64 :=
  let magnitude : Int := (Nat.toDigits 10 digits).length + exponent
  if digits = 0 ∨ magnitude < -400 then .finite negative 0 minExponent
  else if magnitude > 400 then .infinite negative
  else if 0 ≤ exponent then ofRatio negative (digits * pow10 exponent.toNat) 1
  else ofRatio negative digits (pow10 (-exponent).toNat)

/-! ## Reading -/

/-- The digits of a run that groups them by single underscores, or nothing for a bad grouping; an
empty run has no digits. -/
def groupedDigits? (t : Text) : Option (List Nat) :=
  if t.isEmpty then some []
  else if (Text.pieces '_' t).any List.isEmpty then none
  else some (t.filterMap Text.digitValue?)

/-- A digit or an underscore. -/
def isNumeral (c : Char) : Bool := Text.isDigit c || c == '_'

/-- The exponent part of a decimal, which may be missing. -/
def readExponent? : Text → Option Int
  | [] => some 0
  | c :: t =>
    if c = 'e' ∨ c = 'E' then
      let (negative, digits) := match t with
        | '-' :: r => (true, r)
        | '+' :: r => (false, r)
        | r => (false, r)
      if digits.isEmpty ∨ !digits.all isNumeral then none
      else (groupedDigits? digits).map fun ds =>
        let n : Nat := ds.foldl (fun n d => 10 * n + d) 0
        if negative then -(n : Int) else n
    else none

/-- Reads an unsigned decimal such as `12.5e-3`; a digit is needed before or after the point. -/
def readUnsigned? (negative : Bool) (t : Text) : Option Binary64 := do
  let whole := t.takeWhile isNumeral
  let rest := t.dropWhile isNumeral
  let (fraction, rest) := match rest with
    | '.' :: r => (r.takeWhile isNumeral, r.dropWhile isNumeral)
    | r => ([], r)
  let ws ← groupedDigits? whole
  let fs ← groupedDigits? fraction
  let e ← readExponent? rest
  if ws.isEmpty && fs.isEmpty then none
  else some (ofDecimal negative ((ws ++ fs).foldl (fun n d => 10 * n + d) 0) (e - fs.length))

/-- Reads a number: a signed decimal or, in any case, `inf`, `infinity` or `nan`. -/
def read? (t : Text) : Option Binary64 :=
  let (negative, body) := match Text.trim t with
    | '-' :: r => (true, r)
    | '+' :: r => (false, r)
    | r => (false, r)
  let word := body.map Char.toLower
  if word = ['i', 'n', 'f'] ∨ word = ['i', 'n', 'f', 'i', 'n', 'i', 't', 'y'] then
    some (.infinite negative)
  else if word = ['n', 'a', 'n'] then some .notANumber
  else readUnsigned? negative body

/-! ## Shortest digits -/

/-- The decimal exponent of the leading digit of a positive quotient, searched upwards from an
estimate that lies below it. -/
def leadingPlace (num den : Nat) : Nat → Int → Int
  | 0, place => place
  | fuel + 1, place =>
    let next := place + 1
    let reached :=
      if 0 ≤ next then den * pow10 next.toNat ≤ num else den ≤ num * pow10 (-next).toNat
    if reached then leadingPlace num den fuel next else place

/-- `num / den` in units of `10 ^ place`, as a quotient of naturals. -/
def inUnits (num den : Nat) (place : Int) : Nat × Nat :=
  if 0 ≤ place then (num, den * pow10 place.toNat) else (num * pow10 (-place).toNat, den)

/-- The point of the decimal grid `10 ^ place` that reads back as the number with value
`num / den`, nearest first, where half the gaps to its neighbours are `below / den` and
`above / den` and the ends of the interval count iff `closed`. -/
def gridPoint? (num den below above : Nat) (closed : Bool) (place : Int) : Option Nat :=
  let (n, d) := inUnits num den place
  let (lo, _) := inUnits (num - below) den place
  let (hi, _) := inUnits (num + above) den place
  let inside (k : Nat) : Bool :=
    if closed then decide (lo ≤ k * d ∧ k * d ≤ hi) else decide (lo < k * d ∧ k * d < hi)
  let q := n / d
  let nearest := roundHalfEven n d
  let other := if nearest = q then q + 1 else q
  if inside nearest then some nearest else if inside other then some other else none

/-- The first grid, from coarse to fine, that has a point which reads back. -/
def firstGrid (num den below above : Nat) (closed : Bool) : Nat → Int → Nat × Int
  | 0, place => (num / den, place)
  | fuel + 1, place =>
    match gridPoint? num den below above closed place with
    | some k => (k, place)
    | none => firstGrid num den below above closed fuel (place - 1)

/-- The fewest decimal digits that read back as a positive number, nearest to it, and the power of
ten they count. -/
def shortest (significand : Nat) (exponent : Int) : Nat × Int :=
  let narrowBelow := significand == pow2 52 && decide (minExponent < exponent)
  let (num, den) :=
    if 0 ≤ exponent then (4 * significand * pow2 exponent.toNat, 4)
    else (4 * significand, 4 * pow2 (-exponent).toNat)
  let unit := if 0 ≤ exponent then pow2 exponent.toNat else 1
  let place := leadingPlace num den 700 (-340)
  firstGrid num den (if narrowBelow then unit else 2 * unit) (2 * unit) (significand % 2 == 0) 18
    place

/-! ## Writing -/

/-- A decimal exponent as written: a sign and at least two digits. -/
def writeExponent (e : Int) : Text :=
  let digits := Nat.toDigits 10 e.natAbs
  (if e < 0 then '-' else '+') :: (if digits.length < 2 then '0' :: digits else digits)

/-- Digits laid out with the leading one worth `10 ^ place`: positionally from `1e-4` up to `1e16`
and with an exponent outside. -/
def layOut (digits : Text) (place : Int) : Text :=
  if -4 ≤ place ∧ place < 16 then
    if place < 0 then '0' :: '.' :: List.replicate (-place - 1).toNat '0' ++ digits
    else
      let whole := place.toNat + 1
      let padded := digits ++ List.replicate (whole - digits.length) '0'
      let fraction := padded.drop whole
      padded.take whole ++ '.' :: (if fraction.isEmpty then ['0'] else fraction)
  else
    match digits with
    | [] => []
    | [c] => c :: 'e' :: writeExponent place
    | c :: rest => c :: '.' :: rest ++ 'e' :: writeExponent place

/-- Digits without the zeros at their end. -/
def dropTrailingZeros (digits : Text) : Text := (digits.reverse.dropWhile (· == '0')).reverse

/-- The shortest decimal text that reads back as the number. -/
def write : Binary64 → Text
  | .notANumber => ['n', 'a', 'n']
  | .infinite negative => if negative then ['-', 'i', 'n', 'f'] else ['i', 'n', 'f']
  | .finite negative m e =>
    let body :=
      if m = 0 then ['0', '.', '0']
      else
        let (k, place) := shortest m e
        let digits := Nat.toDigits 10 k
        layOut (dropTrailingZeros digits) (place + digits.length - 1)
    if negative then '-' :: body else body

end Binary64

end Stencil
