import Stencil.Number.Integer
import Stencil.Text.LetterCase
import Stencil.Text.Quoted
import Stencil.Value.Basic

/-!
# Values as texts

Two text forms of a value.  `Value.display` is the form in which a value is shown: texts as they
are, collections with their brackets, and texts within a collection quoted.  `Value.text` is the
form that is put into a template or compared by a condition: there nothing is the empty text and
booleans are in lower case.
-/

namespace Stencil

namespace Value

/-! ## Literals -/

/-- Pieces with a comma and a space between neighbours. -/
def commaJoin (parts : List Text) : Text := Text.join [',', ' '] parts

mutual

/-- A value as it is shown within a collection. -/
def literal : Value → Text
  | .none => "None".toList
  | .bool b => if b then "True".toList else "False".toList
  | .int n => Integer.write n
  | .float x => x.write
  | .str t => Text.quoted t
  | .list items => '[' :: commaJoin (literals items) ++ [']']
  | .tuple items =>
    match literals items with
    | [part] => '(' :: part ++ [',', ')']
    | parts => '(' :: commaJoin parts ++ [')']
  | .dict entries => '{' :: commaJoin (entryLiterals entries) ++ ['}']
  | .set items =>
    match literals items with
    | [] => "set()".toList
    | parts => '{' :: commaJoin parts ++ ['}']

/-- The literals of the items of a collection. -/
def literals : List Value → List Text
  | [] => []
  | item :: items => literal item :: literals items

/-- The literals of the entries of a mapping. -/
def entryLiterals : List (Value × Value) → List Text
  | [] => []
  | (key, value) :: entries => (literal key ++ ':' :: ' ' :: literal value) :: entryLiterals entries

end

/-! ## Text forms -/

/-- A value as it is shown on its own. -/
def display : Value → Text
  | .str t => t
  | v => literal v

/-- The text of a boolean. -/
def boolText (b : Bool) : Text :=
  if b then ['t', 'r', 'u', 'e'] else ['f', 'a', 'l', 's', 'e']

/-- The text of a value in a template. -/
def text : Value → Text
  | .none => []
  | .bool b => boolText b
  | v => display v

/-- Whether a text counts as true: everything but the empty text and `false` in any case. -/
def isTrueText (t : Text) : Bool := !t.isEmpty && !Text.spells ['f', 'a', 'l', 's', 'e'] t

/-- Whether a value counts as true. -/
def truth (v : Value) : Bool := isTrueText v.text

@[simp] theorem text_str (t : Text) : text (.str t) = t := rfl

@[simp] theorem text_none : text .none = [] := rfl

@[simp] theorem text_bool (b : Bool) : text (.bool b) = boolText b := rfl

/-- A boolean counts as what it is. -/
@[simp] theorem truth_bool (b : Bool) : truth (.bool b) = b := by cases b <;> rfl

end Value

end Stencil
