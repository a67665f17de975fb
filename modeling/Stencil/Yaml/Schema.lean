import Stencil.Number.Binary64
import Stencil.Number.Integer
import Stencil.Value.Basic

/-!
# Plain scalars

What an unquoted scalar of a YAML document stands for, by the rules of version 1.1: nothing, a truth
value, an integer in one of five bases, a floating point number, or else the text itself.  Dates are
texts here.

## Contents

* `integer?` and `float?` read the numeric forms.
* `plainValue` is the value of a plain scalar.
-/

namespace Stencil.Yaml

/-- Why a text is not read as a document. -/
inductive Fault where
  | malformed
  /-- A decimal number is longer than numbers may be. -/
  | integer (fault : IntegerFault)
  deriving DecidableEq, Repr

/-! ## Words -/

/-- The spellings of nothing. -/
def noneWords : List String := ["~", "null", "Null", "NULL"]

/-- The spellings of truth. -/
def trueWords : List String :=
  ["yes", "Yes", "YES", "true", "True", "TRUE", "on", "On", "ON"]

/-- The spellings of falsehood. -/
def falseWords : List String :=
  ["no", "No", "NO", "false", "False", "FALSE", "off", "Off", "OFF"]

/-- The marks of merged and of default values, which stand for no value of their own. -/
def markWords : List String := ["<<", "="]

/-! ## Integers -/

/-- A digit, or the underscore that groups digits. -/
def isNumeral (c : Char) : Bool := c.isDigit || c == '_'

/-- The text without the underscores that group its digits. -/
def ungrouped (t : Text) : Text := t.filter (· != '_')

/-- The value of a digit in a base up to sixteen. -/
def digitIn? (base : Nat) (c : Char) : Option Nat :=
  let digit :=
    if c.isDigit then c.toNat - '0'.toNat
    else if 'a' ≤ c ∧ c ≤ 'f' then c.toNat - 'a'.toNat + 10
    else if 'A' ≤ c ∧ c ≤ 'F' then c.toNat - 'A'.toNat + 10
    else base
  if digit < base then some digit else none

/-- A number in a base; underscores may stand anywhere, but a digit is needed. -/
def natural? (base : Nat) (t : Text) : Option Nat :=
  let digits := ungrouped t
  if digits.isEmpty then none
  else digits.foldlM (fun n c => (digitIn? base c).map (base * n + ·)) 0

/-- A place of a number in base sixty after the first: at most two digits. -/
def place? : Text → Option Nat
  | [d] => digitIn? 10 d
  | [c, d] => do return 10 * (← digitIn? 6 c) + (← digitIn? 10 d)
  | _ => none

/-- The number whose places in base sixty after the first are the given texts. -/
def sexagesimal? (first : Nat) (places : List Text) : Option Nat :=
  if places.isEmpty then none
  else places.foldlM (fun n t => (place? t).map (60 * n + ·)) first

/-- A number in decimal, or in base sixty with colons between the places. -/
def decimal? (body : Text) : Option (Except IntegerFault Int) :=
  match Text.pieces ':' body with
  | [] => none
  | first :: places =>
    if !first.all isNumeral then none
    else
      match Integer.read (ungrouped first), places with
      | result, [] => some result
      | .ok n, places => (sexagesimal? n.toNat places).map fun n => .ok n
      | .error fault, _ => some (.error fault)

/-- An unsigned integer in one of its forms. -/
def magnitude? (body : Text) : Option (Except IntegerFault Int) :=
  match body with
  | '0' :: 'b' :: digits => (natural? 2 digits).map fun n => .ok n
  | '0' :: 'x' :: digits => (natural? 16 digits).map fun n => .ok n
  | '0' :: _ => (natural? 8 body).map fun n => .ok n
  | c :: _ => if c.isDigit then decimal? body else none
  | [] => none

/-- An integer in one of its forms. -/
def integer? (t : Text) : Option (Except IntegerFault Int) :=
  let (negative, body) := Integer.splitSign t
  (magnitude? body).map fun result => result.map fun n => if negative then -n else n

/-! ## Floating point numbers -/

/-- A missing exponent, or a signed one. -/
def isExponent : Text → Bool
  | [] => true
  | e :: sign :: digits =>
    (e == 'e' || e == 'E') && (sign == '+' || sign == '-') && !digits.isEmpty &&
      digits.all Char.isDigit
  | _ => false

/-- Whether the text after the point of a number is one. -/
def isFraction (t : Text) : Bool := isExponent (t.dropWhile isNumeral)

/-- A number in base sixty with a fraction. -/
def sexagesimalFloat? (negative : Bool) (whole fraction : Text) : Option Binary64 :=
  match Text.pieces ':' whole with
  | [] => none
  | first :: places => do
    if !first.all isNumeral || !fraction.all isNumeral then none
    else
      let n ← sexagesimal? (← natural? 10 first) places
      let digits := ungrouped fraction
      let scale := Binary64.pow10 digits.length
      return .ofRatio negative (n * scale + Integer.ofDigits digits) scale

/-- A floating point number; its point is needed. -/
def float? (t : Text) : Option Binary64 :=
  let (negative, body) := Integer.splitSign t
  if [".inf", ".Inf", ".INF"].contains (String.ofList body) then some (.infinite negative)
  else if [".nan", ".NaN", ".NAN"].contains (String.ofList t) then some .notANumber
  else
    match Text.partition '.' body with
    | (_, none) => none
    | ([], some fraction) =>
      if body.length = t.length ∧ (fraction.head?.any Char.isDigit) ∧ isFraction fraction then
        Binary64.read? (ungrouped t)
      else none
    | (first :: whole, some fraction) =>
      if !first.isDigit then none
      else if whole.all isNumeral then
        if isFraction fraction then Binary64.read? (ungrouped t) else none
      else sexagesimalFloat? negative (first :: whole) fraction

/-! ## Values -/

/-- The value of a plain scalar. -/
def plainValue (t : Text) : Except Fault Value :=
  let word := String.ofList t
  if noneWords.contains word then .ok .none
  else if trueWords.contains word then .ok (.bool true)
  else if falseWords.contains word then .ok (.bool false)
  else if markWords.contains word then .error .malformed
  else
    match float? t, integer? t with
    | some x, _ => .ok (.float x)
    | none, some (.ok n) => .ok (.int n)
    | none, some (.error fault) => .error (.integer fault)
    | none, none => .ok (.str t)

end Stencil.Yaml
