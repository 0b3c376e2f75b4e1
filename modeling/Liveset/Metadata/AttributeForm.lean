import Liveset.Metadata.Attribute
import Liveset.Entity.Form

/-!
# Written forms of attributes

A constant may hold a list of constants, so its form is read by recursion on the JSON value. It is
the one form without a depth of its own, and the limit on the nesting of a document is kept here: a
constant is read with the room that is left for it inside everything that encloses it.
-/

set_option autoImplicit false

namespace Liveset

namespace Constant

mutual

/-- The written form. -/
def form : Constant → Json
  | .null => .string "null"
  | .bool value => .tagged "bool" (toJson value)
  | .int value => .tagged "int" (toJson value)
  | .string value => .tagged "string" (toJson value)
  | .type id => .tagged "type" (toJson id)
  | .array items => .tagged "array" (.array (formItems items))

/-- The written forms of a list of constants. -/
def formItems : List Constant → List Json
  | [] => []
  | item :: rest => form item :: formItems rest

end

/-- Read the payload of a constant called `name` that holds no list. -/
def ofPayload? (name : String) (payload : Json) : Option Constant :=
  match name with
  | "null" => Json.bare .null (some payload)
  | "bool" => (ofJson? payload).map .bool
  | "int" => (ofJson? payload).map .int
  | "string" => (ofJson? payload).map .string
  | "type" => (ofJson? payload).map .type
  | _ => none

mutual

/-- Read a constant in which at most `room` arrays and objects enclose one another. -/
def ofForm? (room : Nat) : Json → Option Constant
  | .string name => if name = "null" then some .null else none
  | .object [(name, .array items)] =>
    if name = "array" ∧ 2 ≤ room then (ofForms? (room - 2) items).map .array else none
  | .object [(name, payload)] => if 1 ≤ room then ofPayload? name payload else none
  | _ => none

/-- Read a list of constants, each with the same room. -/
def ofForms? (room : Nat) : List Json → Option (List Constant)
  | [] => some []
  | item :: rest => do return (← ofForm? room item) :: (← ofForms? room rest)

end

end Constant

namespace Argument

/-- The written form. -/
def form (a : Argument) : Json :=
  .object [("value_type", toJson a.valueType), ("value", a.value.form)]

/-- Read a constant with its type. Inside the argument at most `room` arrays and objects enclose one
another. -/
def ofForm? (room : Nat) (value : Json) : Option Argument := do
  let [valueType, some constant] ← value.components? ["value_type", "value"] | none
  return { valueType := ← Json.required valueType, value := ← Constant.ofForm? room constant }

/-- The room inside an argument that is given by position. The program, its attributes, the
attribute, its arguments and the argument itself enclose the constant. -/
def room : Nat := Json.nestingLimit - 5

instance : JsonForm Argument where
  toJson := form
  ofJson? := ofForm? room

end Argument

namespace NamedArgument

/-- The written form. -/
def form (a : NamedArgument) : Json :=
  .object [("name", toJson a.name), ("argument", toJson a.argument)]

/-- Read a named constant. The pair of name and argument is one level more around the constant than
an argument given by position has. -/
def ofForm? (value : Json) : Option NamedArgument := do
  let [name, some argument] ← value.components? ["name", "argument"] | none
  return {
    name := ← Json.required name
    argument := ← Argument.ofForm? (Argument.room - 1) argument }

instance : JsonForm NamedArgument where
  toJson := form
  ofJson? := ofForm?

end NamedArgument

namespace Attribute

/-- The written form. -/
def form (a : Attribute) : Json :=
  .object [("constructor", toJson a.constructor), ("arguments", toJson a.arguments),
    ("fields", toJson a.fields), ("properties", toJson a.properties)]

/-- Read an attribute. -/
def ofForm? (value : Json) : Option Attribute := do
  let [constructor, arguments, fields, properties] ←
    value.components? ["constructor", "arguments", "fields", "properties"] | none
  return {
    constructor := ← Json.required constructor
    arguments := ← Json.orElse [] arguments
    fields := ← Json.orElse [] fields
    properties := ← Json.orElse [] properties }

instance : JsonForm Attribute where
  toJson := form
  ofJson? := ofForm?

end Attribute

end Liveset
