import Liveset.Toml.Token

/-!
# TOML values

What may stand to the right of an equals sign. Numbers and dates are recognised and not kept:
nothing in this library is set by one.

A key with periods, as in `a.b = 1`, makes a table on the way. Such a *dotted* table can be extended
by later keys; a table in braces cannot. Keys are kept in the order in which they were given, and a
key that was given twice stands twice.

What this module delivers: `Value` and `Value.assign?`.
-/

set_option autoImplicit false

namespace Liveset.Toml

/-- A TOML value. -/
inductive Value where
  | string (text : String)
  | bool (value : Bool)
  | number
  | date
  | array (items : List Value)
  /-- A table in braces. -/
  | inline (pairs : List (String × Value))
  /-- A table that keys with periods made. -/
  | dotted (pairs : List (String × Value))
deriving Inhabited, Repr

/-- Keys with their values, in order. -/
abbrev Pairs := List (String × Value)

/-- Replace the value of the first pair with a given key. -/
def Pairs.replace (pairs : Pairs) (name : String) (value : Value) : Pairs :=
  match pairs with
  | [] => []
  | pair :: rest =>
    if pair.1 = name then (name, value) :: rest else pair :: Pairs.replace rest name value

/-- Give the key with these parts a value. All parts but the last name dotted tables. -/
def Value.assign? (value : Value) : List String → Pairs → Option Pairs
  | [], _ => none
  | [name], pairs => some (pairs ++ [(name, value)])
  | name :: rest, pairs =>
    match pairs.lookup name with
    | none => (value.assign? rest []).map fun inner => pairs ++ [(name, .dotted inner)]
    | some (.dotted old) =>
      (value.assign? rest old).map fun inner => pairs.replace name (.dotted inner)
    | some _ => none

end Liveset.Toml
