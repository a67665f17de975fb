import Stencil.Text.Printable

/-!
# Quoted texts

The form in which a text is shown inside a list, a mapping or a message: between quotes, with
backslash escapes for the backslash, the quote, three named control characters, and everything
unprintable by its code.  Single quotes are used unless the text holds a single quote and no
double quote.
-/

namespace Stencil.Text

/-! ## Codes -/

/-- The hexadecimal digits of a code, in lower case and padded with zeros to a width. -/
def hex (width code : Nat) : Text :=
  let digits := Nat.toDigits 16 code
  List.replicate (width - digits.length) '0' ++ digits

/-! ## Escapes -/

/-- The quote that encloses a text. -/
def quoteFor (t : Text) : Char :=
  if t.contains '\'' && !t.contains '"' then '"' else '\''

/-- One character as it stands between quotes. -/
def escapeChar (quote c : Char) : Text :=
  if c = quote ∨ c = '\\' then ['\\', c]
  else if c = '\n' then ['\\', 'n']
  else if c = '\r' then ['\\', 'r']
  else if c = '\t' then ['\\', 't']
  else if isPrintable c then [c]
  else if c.toNat < 0x100 then '\\' :: 'x' :: hex 2 c.toNat
  else if c.toNat < 0x10000 then '\\' :: 'u' :: hex 4 c.toNat
  else '\\' :: 'U' :: hex 8 c.toNat

/-- The quoted form of a text. -/
def quoted (t : Text) : Text :=
  let quote := quoteFor t
  quote :: t.flatMap (escapeChar quote) ++ [quote]

end Stencil.Text
