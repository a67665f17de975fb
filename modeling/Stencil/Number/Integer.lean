import Stencil.Text.Digit
import Stencil.Text.Quoted

/-!
# Integers as texts

Reading and writing of integers in decimal.  A written integer may stand between whitespace, have
a sign, use the decimal digits of any script, and group its digits by single underscores.  A text
of more digits than `digitLimit` is refused, leading zeros included, so that reading stays cheap.
-/

namespace Stencil

/-- Why a text is not read as an integer. -/
inductive IntegerFault where
  | malformed (text : Text)
  | tooLong (digits : Nat)
  deriving DecidableEq, Repr

namespace Integer

/-! ## Reading -/

/-- The most digits a written integer may have. -/
def digitLimit : Nat := 4300

/-- Whitespace around a written integer; the four ASCII information separators are not allowed. -/
def isMargin (c : Char) : Bool := Text.isBlank c && !decide (28 ≤ c.toNat ∧ c.toNat ≤ 31)

/-- A sign in front of the digits, and the text after it. -/
def splitSign : Text → Bool × Text
  | '-' :: t => (true, t)
  | '+' :: t => (false, t)
  | t => (false, t)

/-- The number a list of digits stands for. -/
def ofDigits (digits : Text) : Nat :=
  digits.foldl (fun n c => 10 * n + (Text.digitValue? c).getD 0) 0

/-- A digit, or the underscore that groups digits. -/
def isNumeral (c : Char) : Bool := Text.isDigit c || c == '_'

/-- Reads an integer.  The longest run of digits and underscores is judged first: each underscore
must stand between two digits, and the digits must not be too many; then nothing may follow it. -/
def read (t : Text) : Except IntegerFault Int :=
  let (negative, body) := splitSign (Text.trimWhere isMargin t)
  let run := body.takeWhile isNumeral
  let digits := run.filter Text.isDigit
  if (Text.pieces '_' run).any List.isEmpty then .error (.malformed t)
  else if digitLimit < digits.length then .error (.tooLong digits.length)
  else if run.length < body.length then .error (.malformed t)
  else .ok (if negative then -(ofDigits digits : Int) else ofDigits digits)

/-! ## Writing -/

/-- The shortest decimal form of an integer. -/
def write : Int → Text
  | .ofNat n => Nat.toDigits 10 n
  | .negSucc n => '-' :: Nat.toDigits 10 (n + 1)

end Integer

/-! ## Wording -/

/-- The wording of a refusal; the refused text is quoted, up to 200 characters of it. -/
def IntegerFault.message : IntegerFault → String
  | .malformed t =>
    let shown := String.ofList ((Text.quoted t).take 200)
    s!"invalid literal for int() with base 10: {shown}"
  | .tooLong digits =>
    let limit := Integer.digitLimit
    s!"Exceeds the limit ({limit} digits) for integer string conversion: value has {digits} digits; use sys.set_int_max_str_digits() to increase the limit"

end Stencil
