import Stencil.Text.Quoted

/-!
# Faults of template source

Why a piece of template source cannot be read: the cause, its wording, and the offending fragment
that a host may want to show beside the message.
-/

namespace Stencil

/-- Why template source cannot be read. -/
inductive InputFault where
  /-- The stream the source comes from has been closed. -/
  | closed
  /-- `<!-` is not followed by a second dash; `found` is the line it stands in. -/
  | badComment (found : Text)
  /-- The character that ends a value is missing. -/
  | unterminated (name : Text) (closing : Char) (found : Text)
  /-- A terminator of several characters is missing. -/
  | missingTerminator (ending found : Text)
  /-- A name is not followed by `=` or `:`. -/
  | missingEquals (name : Text)
  /-- A value that needs quotes has none. -/
  | missingQuotes (name : Text)
  /-- An output mapping does not go on with `$`. -/
  | missingDollar (name : Text)
  /-- An output mapping names a target that is not allowed. -/
  | badTarget (name target : Text)
  /-- The target of an output mapping is not followed by `{`. -/
  | missingBrace (name target : Text)
  /-- An item of a list is not quoted. -/
  | unquotedItem (found : Option Char)
  deriving DecidableEq, Repr

namespace InputFault

/-! ## Wording -/

/-- The forms that an output mapping can take. -/
def mappingExample (name : String) : String :=
  "\n\t" ++ name ++ " => $attribute\x7battKey\x7d\nor:\n\t" ++ name ++ " => $session\x7bsessionKey\x7d"

/-- The wording of a fault. -/
def message : InputFault → String
  | .closed => "I/O operation on closed file"
  | .badComment found =>
    "Invalid comment! Expected comment to begin with \"<!--\", but found: " ++ String.ofList found
  | .unterminated name closing found =>
    let context := if name.isEmpty then "" else " for '" ++ String.ofList name ++ "'"
    let closing := String.ofList (Text.quoted [closing])
    let found := String.ofList found
    s!"Unterminated value{context}: expected closing {closing}, read: {found}"
  | .missingTerminator ending found =>
    let ending := String.ofList ending
    let found := String.ofList found
    s!"Unable to find: '{ending}'. Read to EOF and gave up. Read: \n{found}"
  | .missingEquals name =>
    let name := String.ofList name
    s!"'=' or ':' missing for Name Value Pair: '{name}'!"
  | .missingQuotes name =>
    let name := String.ofList name
    s!"Name Value Pair named '{name}' is missing single or double quotes enclosing its value. It must follow one of these formats:\n\t{name}=\"value\"\nor:\n\t{name}='value'"
  | .missingDollar name =>
    let name := String.ofList name
    let forms := mappingExample name
    s!"'$' missing for Name Value Pair named: '{name}=>'! This NVP appears to be a mapping expression, therefore requires a format similar to:{forms}"
  | .badTarget name target =>
    let name := String.ofList name
    let target := String.ofList target
    let forms := mappingExample name
    s!"Invalid OutputType ('{target}') for Name Value Pair named: '{name}=>${target}\x7b...\x7d'! Expected a format similar to:{forms}"
  | .missingBrace name target =>
    let name := String.ofList name
    let target := String.ofList target
    s!"'\x7b' missing for Name Value Pair: '{name}=>${target}'! The format must resemble the following:\n\t{name} => ${target}\x7bkey\x7d"
  | .unquotedItem _ =>
    "A List or array is missing a single or double quotes enclosing one or more of its values. It must follow:\n\tname=\x7b\"value\", ...\x7d\nor:\n\tname=\x7b'value', ...\x7d\n\n[]'s may be used in place of \x7b\x7d's to specify an array instead of a List."

/-- The offending piece of source, where there is one. -/
def fragment? : InputFault → Option Text
  | .closed => none
  | .badComment found => some found
  | .unterminated _ _ found => some found
  | .missingTerminator ending _ => some ending
  | .missingEquals name => some name
  | .missingQuotes name => some name
  | .missingDollar name => some (name ++ ['=', '>'])
  | .badTarget _ target => some target
  | .missingBrace name target => some (name ++ '=' :: '>' :: '$' :: target)
  | .unquotedItem found => found.map fun c => [c]

end InputFault

end Stencil
