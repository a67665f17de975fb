import Stencil.Number.Binary64
import Stencil.Text.Basic

/-!
# Values

The values that templates are resolved to: nothing, booleans, integers, floating point numbers,
texts, and the four collections.  A mapping keeps its entries in the order of their insertion.

## Contents

* `Value` and the name of each kind of value.
* `Value.sameKey`, the equality under which a mapping identifies its keys; numbers of different
  kinds are one key when they are equal.
* `Entries`, the contents of a mapping, with look-up by name and insertion.
-/

namespace Stencil

/-- A value. -/
inductive Value where
  | none
  | bool (b : Bool)
  | int (n : Int)
  | float (x : Binary64)
  | str (t : Text)
  | list (items : List Value)
  | tuple (items : List Value)
  | dict (entries : List (Value × Value))
  | set (items : List Value)
  deriving Repr, Inhabited

namespace Value

/-! ## Kinds -/

/-- The name of a value's kind. -/
def kindName : Value → String
  | .none => "NoneType"
  | .bool _ => "bool"
  | .int _ => "int"
  | .float _ => "float"
  | .str _ => "str"
  | .list _ => "list"
  | .tuple _ => "tuple"
  | .dict _ => "dict"
  | .set _ => "set"

/-- Whether a value is present. -/
def isSome : Value → Bool
  | .none => false
  | _ => true

/-! ## Keys -/

/-- A finite number as an integer times a power of two. -/
def dyadic? : Value → Option (Int × Int)
  | .bool b => some (if b then 1 else 0, 0)
  | .int n => some (n, 0)
  | .float (.finite negative m e) => some (if negative then -(m : Int) else m, e)
  | _ => Option.none

/-- Equality of `m * 2 ^ e` with `n * 2 ^ f`. -/
def sameDyadic (m e n f : Int) : Bool :=
  let low := min e f
  m * Binary64.pow2 (e - low).toNat == n * Binary64.pow2 (f - low).toNat

/-- Equality of two keys that are neither texts nor rows. -/
def sameScalar : Value → Value → Bool
  | .none, .none => true
  | .float (.infinite a), .float (.infinite b) => a == b
  | v, w =>
    match dyadic? v, dyadic? w with
    | some (m, e), some (n, f) => sameDyadic m e n f
    | _, _ => false

mutual

/-- Equality of two keys of a mapping.  Values that cannot be keys are equal to none. -/
def sameKey : Value → Value → Bool
  | .str s, w =>
    match w with
    | .str t => s == t
    | _ => false
  | .tuple xs, w =>
    match w with
    | .tuple ys => sameKeys xs ys
    | _ => false
  | v, w => sameScalar v w

/-- Equality of two rows of keys. -/
def sameKeys : List Value → List Value → Bool
  | [], ys => ys.isEmpty
  | x :: xs, ys =>
    match ys with
    | [] => false
    | y :: ys => sameKey x y && sameKeys xs ys

end

/-- Whether a key is the given name. -/
def isNamed (name : Text) : Value → Bool
  | .str t => t == name
  | _ => false

/-- A key is the same as a name iff it is that text. -/
theorem sameKey_str (key : Value) (name : Text) : sameKey key (.str name) = isNamed name key := by
  cases key with
  | float x => cases x <;> rfl
  | _ => rfl

end Value

/-- The contents of a mapping, oldest entry first. -/
abbrev Entries := List (Value × Value)

namespace Entries

/-! ## Mappings -/

/-- The value under a name. -/
def find? (entries : Entries) (name : Text) : Option Value :=
  (List.find? (fun entry => entry.1.isNamed name) entries).map Prod.snd

/-- The value under a name, or nothing. -/
def get (entries : Entries) (name : Text) : Value := (find? entries name).getD .none

/-- Puts a value under a key.  An equal key keeps its place and its spelling. -/
def insert (key value : Value) : Entries → Entries
  | [] => [(key, value)]
  | (k, v) :: rest =>
    if k.sameKey key then (k, value) :: rest else (k, v) :: insert key value rest

/-- Removes the entry under a name. -/
def erase (name : Text) (entries : Entries) : Entries :=
  List.filter (fun entry => !entry.1.isNamed name) entries

/-- The entries of a list of pairs, later ones replacing earlier ones. -/
def ofPairs (pairs : List (Value × Value)) : Entries :=
  pairs.foldl (fun entries pair => insert pair.1 pair.2 entries) []

theorem get_nil (name : Text) : get [] name = .none := rfl

/-- A value put under a name is found there. -/
theorem find?_insert (name : Text) (value : Value) (entries : Entries) :
    find? (insert (.str name) value entries) name = some value := by
  induction entries with
  | nil => simp [insert, find?, Value.isNamed]
  | cons entry rest ih =>
    obtain ⟨k, v⟩ := entry
    rw [insert, Value.sameKey_str]
    split
    · rename_i hk
      simp [find?, hk]
    · rename_i hk
      simpa [find?, hk] using ih

end Entries

end Stencil
