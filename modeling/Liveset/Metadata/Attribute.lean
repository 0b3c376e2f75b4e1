import Liveset.Entity

/-!
# Attributes

An attribute is a call of a constructor with constants, together with constants for named fields and
properties. A constant may be a type or a list of constants.
-/

set_option autoImplicit false

namespace Liveset

/-- A constant. -/
inductive Constant where
  | null
  | bool (value : Bool)
  | int (value : Int)
  | string (value : String)
  | type (id : TypeId)
  | array (items : List Constant)
deriving Inhabited, Repr

namespace Constant

mutual

/-- The types named in a constant, at any depth of nested lists. -/
def types : Constant → List TypeId
  | .type id => [id]
  | .array items => typesOf items
  | _ => []

/-- The types named in a list of constants. -/
def typesOf : List Constant → List TypeId
  | [] => []
  | item :: rest => types item ++ typesOf rest

end

end Constant

/-- A constant with its declared type. -/
structure Argument where
  valueType : TypeId
  value : Constant
deriving Inhabited, Repr

/-- A constant for the field or property called `name`. -/
structure NamedArgument where
  name : String
  argument : Argument
deriving Inhabited, Repr

/-- An attribute. -/
structure Attribute where
  constructor : MethodId
  arguments : List Argument := []
  fields : List NamedArgument := []
  properties : List NamedArgument := []
deriving Inhabited, Repr

end Liveset
