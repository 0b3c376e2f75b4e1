import Liveset.Metadata.Member
import Liveset.Metadata.TypeForm
import Liveset.Metadata.CodeForm

/-!
# Written forms of members, parameters and generic parameters
-/

set_option autoImplicit false

namespace Liveset

namespace MemberImport

/-- The written form. -/
def form (i : MemberImport) : Json :=
  .object [("class_name", toJson i.className), ("member_name", toJson i.memberName),
    ("descriptor", toJson i.descriptor)]

/-- Read an import. -/
def ofForm? (value : Json) : Option MemberImport := do
  let [className, memberName, descriptor] ←
    value.components? ["class_name", "member_name", "descriptor"] | none
  return {
    className := ← Json.required className
    memberName := ← Json.required memberName
    descriptor := ← Json.required descriptor }

instance : JsonForm MemberImport where
  toJson := form
  ofJson? := ofForm?

end MemberImport

/-! ## Methods -/

namespace Semantics

/-- The written name. -/
def name : Semantics → String
  | .none => "none"
  | .getter => "getter"
  | .setter => "setter"
  | .addOn => "add_on"
  | .removeOn => "remove_on"
  | .fire => "fire"

/-- Read the part a method plays. -/
def ofForm? (value : Json) : Option Semantics := do
  let (name, payload) ← value.variant?
  match name with
  | "none" => Json.bare .none payload
  | "getter" => Json.bare .getter payload
  | "setter" => Json.bare .setter payload
  | "add_on" => Json.bare .addOn payload
  | "remove_on" => Json.bare .removeOn payload
  | "fire" => Json.bare .fire payload
  | _ => Option.none

instance : JsonForm Semantics where
  toJson s := .string s.name
  ofJson? := ofForm?

end Semantics

namespace MethodFlags

/-- The component names of the written form. -/
def names : List String := ["static", "virtual", "abstract", "native"]

/-- The written form. -/
def form (f : MethodFlags) : Json :=
  .object (names.zip [toJson f.static, toJson f.virtual, toJson f.abstract, toJson f.native])

/-- Read the marks of a method. -/
def ofForm? (value : Json) : Option MethodFlags := do
  let [static, virtual, abstract, native] ← value.components? names | none
  return {
    static := ← Json.orElse false static
    virtual := ← Json.orElse false virtual
    abstract := ← Json.orElse false abstract
    native := ← Json.orElse false native }

instance : JsonForm MethodFlags where
  toJson := form
  ofJson? := ofForm?

end MethodFlags

namespace MethodDefinition

/-- The component names of the written form. -/
def names : List String :=
  ["declaring_type", "name", "return_type", "parameters", "generic_parameters", "visibility",
    "flags", "semantics", "overrides", "body", "attributes", "import"]

/-- The written form. -/
def form (d : MethodDefinition) : Json :=
  .object (names.zip [toJson d.declaringType, toJson d.name, toJson d.returnType,
    toJson d.parameters, toJson d.genericParameters, toJson d.visibility, toJson d.flags,
    toJson d.semantics, toJson d.overrides, .ofOption d.body, toJson d.attributes,
    .ofOption d.imported])

/-- Read a method definition. -/
def ofForm? (value : Json) : Option MethodDefinition := do
  let [declaringType, name, returnType, parameters, genericParameters, visibility, flags, semantics,
      overrides, body, attributes, imported] ← value.components? names | none
  return {
    declaringType := ← Json.required declaringType
    name := ← Json.required name
    returnType := ← Json.required returnType
    parameters := ← Json.orElse [] parameters
    genericParameters := ← Json.orElse [] genericParameters
    visibility := ← Json.orElse .private visibility
    flags := ← Json.orElse {} flags
    semantics := ← Json.orElse .none semantics
    overrides := ← Json.orElse [] overrides
    body := ← Json.optional body
    attributes := ← Json.orElse [] attributes
    imported := ← Json.optional imported }

instance : JsonForm MethodDefinition where
  toJson := form
  ofJson? := ofForm?

end MethodDefinition

namespace MethodReference

/-- The written form. -/
def form (r : MethodReference) : Json :=
  .object [("declaring_type", toJson r.declaringType), ("name", toJson r.name),
    ("return_type", toJson r.returnType), ("parameter_types", toJson r.parameterTypes)]

/-- Read a method reference. -/
def ofForm? (value : Json) : Option MethodReference := do
  let [declaringType, name, returnType, parameterTypes] ←
    value.components? ["declaring_type", "name", "return_type", "parameter_types"] | none
  return {
    declaringType := ← Json.required declaringType
    name := ← Json.required name
    returnType := ← Json.required returnType
    parameterTypes := ← Json.orElse [] parameterTypes }

instance : JsonForm MethodReference where
  toJson := form
  ofJson? := ofForm?

end MethodReference

namespace MethodNode

/-- The written form. -/
def form : MethodNode → Json
  | .definition d => .tagged "definition" (toJson d)
  | .instance element arguments =>
    .tagged "instance" (.object [("element", toJson element), ("arguments", toJson arguments)])
  | .reference r => .tagged "reference" (toJson r)

/-- Read the payload of an instance. -/
def instancePayload? (payload : Json) : Option MethodNode := do
  let [element, arguments] ← payload.components? ["element", "arguments"] | none
  return .instance (← Json.required element) (← Json.required arguments)

/-- Read a method node. -/
def ofForm? (value : Json) : Option MethodNode := do
  let (name, some payload) ← value.variant? | none
  match name with
  | "definition" => (ofJson? payload).map .definition
  | "instance" => instancePayload? payload
  | "reference" => (ofJson? payload).map .reference
  | _ => none

instance : JsonForm MethodNode where
  toJson := form
  ofJson? := ofForm?

end MethodNode

/-! ## Fields -/

namespace FieldDefinition

/-- The component names of the written form. -/
def names : List String :=
  ["declaring_type", "name", "field_type", "visibility", "static", "resource_id", "attributes",
    "import"]

/-- The written form. -/
def form (d : FieldDefinition) : Json :=
  .object (names.zip [toJson d.declaringType, toJson d.name, toJson d.fieldType,
    toJson d.visibility, toJson d.static, toJson d.resourceId, toJson d.attributes,
    .ofOption d.imported])

/-- Read a field definition. -/
def ofForm? (value : Json) : Option FieldDefinition := do
  let [declaringType, name, fieldType, visibility, static, resourceId, attributes, imported] ←
    value.components? names | none
  return {
    declaringType := ← Json.required declaringType
    name := ← Json.required name
    fieldType := ← Json.required fieldType
    visibility := ← Json.orElse .private visibility
    static := ← Json.orElse false static
    resourceId := ← Json.orElse false resourceId
    attributes := ← Json.orElse [] attributes
    imported := ← Json.optional imported }

instance : JsonForm FieldDefinition where
  toJson := form
  ofJson? := ofForm?

end FieldDefinition

namespace FieldReference

/-- The written form. -/
def form (r : FieldReference) : Json :=
  .object [("declaring_type", toJson r.declaringType), ("name", toJson r.name),
    ("field_type", toJson r.fieldType)]

/-- Read a field reference. -/
def ofForm? (value : Json) : Option FieldReference := do
  let [declaringType, name, fieldType] ←
    value.components? ["declaring_type", "name", "field_type"] | none
  return {
    declaringType := ← Json.required declaringType
    name := ← Json.required name
    fieldType := ← Json.required fieldType }

instance : JsonForm FieldReference where
  toJson := form
  ofJson? := ofForm?

end FieldReference

namespace FieldNode

/-- The written form. -/
def form : FieldNode → Json
  | .definition d => .tagged "definition" (toJson d)
  | .reference r => .tagged "reference" (toJson r)

/-- Read a field node. -/
def ofForm? (value : Json) : Option FieldNode := do
  let (name, some payload) ← value.variant? | none
  match name with
  | "definition" => (ofJson? payload).map .definition
  | "reference" => (ofJson? payload).map .reference
  | _ => none

instance : JsonForm FieldNode where
  toJson := form
  ofJson? := ofForm?

end FieldNode

/-! ## Properties and events -/

namespace Property

/-- The component names of the written form. -/
def names : List String :=
  ["declaring_type", "name", "property_type", "parameters", "getter", "setter", "attributes"]

/-- The written form. -/
def form (p : Property) : Json :=
  .object (names.zip [toJson p.declaringType, toJson p.name, toJson p.propertyType,
    toJson p.parameters, .ofOption p.getter, .ofOption p.setter, toJson p.attributes])

/-- Read a property. -/
def ofForm? (value : Json) : Option Property := do
  let [declaringType, name, propertyType, parameters, getter, setter, attributes] ←
    value.components? names | none
  return {
    declaringType := ← Json.required declaringType
    name := ← Json.required name
    propertyType := ← Json.required propertyType
    parameters := ← Json.orElse [] parameters
    getter := ← Json.optional getter
    setter := ← Json.optional setter
    attributes := ← Json.orElse [] attributes }

instance : JsonForm Property where
  toJson := form
  ofJson? := ofForm?

end Property

namespace Event

/-- The component names of the written form. -/
def names : List String :=
  ["declaring_type", "name", "event_type", "add", "remove", "invoke", "attributes"]

/-- The written form. -/
def form (e : Event) : Json :=
  .object (names.zip [toJson e.declaringType, toJson e.name, toJson e.eventType, .ofOption e.add,
    .ofOption e.remove, .ofOption e.invoke, toJson e.attributes])

/-- Read an event. -/
def ofForm? (value : Json) : Option Event := do
  let [declaringType, name, eventType, add, remove, invoke, attributes] ←
    value.components? names | none
  return {
    declaringType := ← Json.required declaringType
    name := ← Json.required name
    eventType := ← Json.required eventType
    add := ← Json.optional add
    remove := ← Json.optional remove
    invoke := ← Json.optional invoke
    attributes := ← Json.orElse [] attributes }

instance : JsonForm Event where
  toJson := form
  ofJson? := ofForm?

end Event

/-! ## Parameters -/

namespace ParameterOwner

/-- The written form. -/
def form : ParameterOwner → Json
  | .method id => .tagged "method" (toJson id)
  | .property id => .tagged "property" (toJson id)

/-- Read the owner of a parameter. -/
def ofForm? (value : Json) : Option ParameterOwner := do
  let (name, some payload) ← value.variant? | none
  match name with
  | "method" => (ofJson? payload).map .method
  | "property" => (ofJson? payload).map .property
  | _ => none

instance : JsonForm ParameterOwner where
  toJson := form
  ofJson? := ofForm?

end ParameterOwner

namespace Parameter

/-- The written form. -/
def form (p : Parameter) : Json :=
  .object [("owner", toJson p.owner), ("name", toJson p.name),
    ("parameter_type", toJson p.parameterType), ("attributes", toJson p.attributes)]

/-- Read a parameter. -/
def ofForm? (value : Json) : Option Parameter := do
  let [owner, name, parameterType, attributes] ←
    value.components? ["owner", "name", "parameter_type", "attributes"] | none
  return {
    owner := ← Json.required owner
    name := ← Json.orElse "" name
    parameterType := ← Json.required parameterType
    attributes := ← Json.orElse [] attributes }

instance : JsonForm Parameter where
  toJson := form
  ofJson? := ofForm?

end Parameter

namespace GenericOwner

/-- The written form. -/
def form : GenericOwner → Json
  | .type id => .tagged "type" (toJson id)
  | .method id => .tagged "method" (toJson id)

/-- Read the owner of a generic parameter. -/
def ofForm? (value : Json) : Option GenericOwner := do
  let (name, some payload) ← value.variant? | none
  match name with
  | "type" => (ofJson? payload).map .type
  | "method" => (ofJson? payload).map .method
  | _ => none

instance : JsonForm GenericOwner where
  toJson := form
  ofJson? := ofForm?

end GenericOwner

namespace GenericParameter

/-- The written form. -/
def form (p : GenericParameter) : Json :=
  .object [("owner", toJson p.owner), ("name", toJson p.name),
    ("constraints", toJson p.constraints), ("attributes", toJson p.attributes)]

/-- Read a generic parameter. -/
def ofForm? (value : Json) : Option GenericParameter := do
  let [owner, name, constraints, attributes] ←
    value.components? ["owner", "name", "constraints", "attributes"] | none
  return {
    owner := ← Json.required owner
    name := ← Json.required name
    constraints := ← Json.orElse [] constraints
    attributes := ← Json.orElse [] attributes }

instance : JsonForm GenericParameter where
  toJson := form
  ofJson? := ofForm?

end GenericParameter

end Liveset
