import Stencil.Value.Display

/-!
# Name/value pairs

A pair names a value: a text, a list of texts, or an array of texts.  A pair that is an output
mapping also says which kind of place the value names, its target.
-/

namespace Stencil

/-- A name/value pair.  Lists are written in braces and arrays, which are rows, in brackets. -/
structure Pair where
  name : Text
  value : Value
  target : Option Text := none
  deriving Repr, Inhabited

namespace Pair

/-- Whether a pair maps an output. -/
def isMapping (p : Pair) : Bool := p.target.isSome

/-- The text of a pair: `name="value"`, or `name=>$target{value}` for an output mapping. -/
def text (p : Pair) : Text :=
  match p.target with
  | none => p.name ++ '=' :: '"' :: p.value.display ++ ['"']
  | some target => p.name ++ '=' :: '>' :: '$' :: target ++ '{' :: p.value.display ++ ['}']

end Pair

end Stencil
