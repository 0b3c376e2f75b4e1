import Liveset.Entity
import Liveset.Json.Form

/-!
# Written forms of handles and entities

A handle is written as a bare number. An entity is a variant named for its kind; a foreign member
has the pair of its class and its position as payload.
-/

set_option autoImplicit false

namespace Liveset

instance : JsonForm TypeId where
  toJson id := toJson id.index
  ofJson? value := (ofJson? value).map TypeId.mk

instance : JsonForm MethodId where
  toJson id := toJson id.index
  ofJson? value := (ofJson? value).map MethodId.mk

instance : JsonForm FieldId where
  toJson id := toJson id.index
  ofJson? value := (ofJson? value).map FieldId.mk

instance : JsonForm PropertyId where
  toJson id := toJson id.index
  ofJson? value := (ofJson? value).map PropertyId.mk

instance : JsonForm EventId where
  toJson id := toJson id.index
  ofJson? value := (ofJson? value).map EventId.mk

instance : JsonForm ParameterId where
  toJson id := toJson id.index
  ofJson? value := (ofJson? value).map ParameterId.mk

instance : JsonForm GenericParameterId where
  toJson id := toJson id.index
  ofJson? value := (ofJson? value).map GenericParameterId.mk

instance : JsonForm AttributeId where
  toJson id := toJson id.index
  ofJson? value := (ofJson? value).map AttributeId.mk

instance : JsonForm ClassId where
  toJson id := toJson id.index
  ofJson? value := (ofJson? value).map ClassId.mk

namespace Entity

/-- The payload of a foreign member. -/
def memberPayload? : Json → Option (ClassId × Nat)
  | .array [owner, position] => do return (← ofJson? owner, ← ofJson? position)
  | _ => none

/-- The written form of an entity. -/
def form : Entity → Json
  | .type id => .tagged "type" (toJson id)
  | .method id => .tagged "method" (toJson id)
  | .field id => .tagged "field" (toJson id)
  | .property id => .tagged "property" (toJson id)
  | .event id => .tagged "event" (toJson id)
  | .parameter id => .tagged "parameter" (toJson id)
  | .genericParameter id => .tagged "generic_parameter" (toJson id)
  | .attribute id => .tagged "attribute" (toJson id)
  | .foreignClass id => .tagged "foreign_class" (toJson id)
  | .foreignField owner position =>
    .tagged "foreign_field" (.array [toJson owner, toJson position])
  | .foreignMethod owner position =>
    .tagged "foreign_method" (.array [toJson owner, toJson position])

/-- Read the written form of an entity. -/
def ofForm? (value : Json) : Option Entity := do
  let (name, some payload) ← value.variant? | none
  match name with
  | "type" => (ofJson? payload).map .type
  | "method" => (ofJson? payload).map .method
  | "field" => (ofJson? payload).map .field
  | "property" => (ofJson? payload).map .property
  | "event" => (ofJson? payload).map .event
  | "parameter" => (ofJson? payload).map .parameter
  | "generic_parameter" => (ofJson? payload).map .genericParameter
  | "attribute" => (ofJson? payload).map .attribute
  | "foreign_class" => (ofJson? payload).map .foreignClass
  | "foreign_field" => (memberPayload? payload).map fun p => .foreignField p.1 p.2
  | "foreign_method" => (memberPayload? payload).map fun p => .foreignMethod p.1 p.2
  | _ => none

instance : JsonForm Entity where
  toJson := form
  ofJson? := ofForm?

end Entity

end Liveset
