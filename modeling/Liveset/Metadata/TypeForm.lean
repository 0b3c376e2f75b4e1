import Liveset.Metadata.Type
import Liveset.Entity.Form

/-!
# Written forms of type nodes

Each record writes all of its components, in the order of its names, those with a fallback included.
-/

set_option autoImplicit false

namespace Liveset

/-! ## Visibility -/

namespace Visibility

/-- The written name. -/
def name : Visibility → String
  | .private => "private"
  | .assembly => "assembly"
  | .family => "family"
  | .public => "public"

/-- Read a visibility. -/
def ofForm? (value : Json) : Option Visibility := do
  let (name, payload) ← value.variant?
  match name with
  | "private" => Json.bare .private payload
  | "assembly" => Json.bare .assembly payload
  | "family" => Json.bare .family payload
  | "public" => Json.bare .public payload
  | _ => none

instance : JsonForm Visibility where
  toJson v := .string v.name
  ofJson? := ofForm?

end Visibility

/-! ## Type definitions -/

namespace TypeFlags

/-- The component names of the written form. -/
def names : List String :=
  ["interface", "abstract", "sealed", "imported_interface", "compiler_only"]

/-- The written form. -/
def form (f : TypeFlags) : Json :=
  .object (names.zip [toJson f.interface, toJson f.abstract, toJson f.sealed,
    toJson f.importedInterface, toJson f.compilerOnly])

/-- Read the marks of a type. -/
def ofForm? (value : Json) : Option TypeFlags := do
  let [interface, abstract, sealed, importedInterface, compilerOnly] ← value.components? names
    | none
  return {
    interface := ← Json.orElse false interface
    abstract := ← Json.orElse false abstract
    sealed := ← Json.orElse false sealed
    importedInterface := ← Json.orElse false importedInterface
    compilerOnly := ← Json.orElse false compilerOnly }

instance : JsonForm TypeFlags where
  toJson := form
  ofJson? := ofForm?

end TypeFlags

namespace TypeDefinition

/-- The component names of the written form. -/
def names : List String :=
  ["namespace", "name", "declaring_type", "base_type", "interfaces", "visibility", "flags",
    "methods", "fields", "properties", "events", "generic_parameters", "attributes",
    "foreign_import"]

/-- The written form. -/
def form (d : TypeDefinition) : Json :=
  .object (names.zip [toJson d.namespaceName, toJson d.name, .ofOption d.declaringType,
    .ofOption d.baseType, toJson d.interfaces, toJson d.visibility, toJson d.flags,
    toJson d.methods, toJson d.fields, toJson d.properties, toJson d.events,
    toJson d.genericParameters, toJson d.attributes, .ofOption d.foreignImport])

/-- Read a type definition. -/
def ofForm? (value : Json) : Option TypeDefinition := do
  let [namespaceName, name, declaringType, baseType, interfaces, visibility, flags, methods, fields,
      properties, events, genericParameters, attributes, foreignImport] ←
    value.components? names | none
  return {
    namespaceName := ← Json.orElse "" namespaceName
    name := ← Json.required name
    declaringType := ← Json.optional declaringType
    baseType := ← Json.optional baseType
    interfaces := ← Json.orElse [] interfaces
    visibility := ← Json.orElse .private visibility
    flags := ← Json.orElse {} flags
    methods := ← Json.orElse [] methods
    fields := ← Json.orElse [] fields
    properties := ← Json.orElse [] properties
    events := ← Json.orElse [] events
    genericParameters := ← Json.orElse [] genericParameters
    attributes := ← Json.orElse [] attributes
    foreignImport := ← Json.optional foreignImport }

instance : JsonForm TypeDefinition where
  toJson := form
  ofJson? := ofForm?

end TypeDefinition

/-! ## Derived types -/

namespace TypeSpecification

/-- The written form. -/
def form : TypeSpecification → Json
  | .genericInstance element arguments =>
    .tagged "generic_instance"
      (.object [("element", toJson element), ("arguments", toJson arguments)])
  | .array element rank =>
    .tagged "array" (.object [("element", toJson element), ("rank", toJson rank)])
  | .byReference element => .tagged "by_reference" (.object [("element", toJson element)])
  | .pointer element => .tagged "pointer" (.object [("element", toJson element)])
  | .functionPointer returnType parameters =>
    .tagged "function_pointer"
      (.object [("return_type", toJson returnType), ("parameters", toJson parameters)])
  | .requiredModifier element modifier =>
    .tagged "required_modifier"
      (.object [("element", toJson element), ("modifier", toJson modifier)])
  | .optionalModifier element modifier =>
    .tagged "optional_modifier"
      (.object [("element", toJson element), ("modifier", toJson modifier)])

/-- Read the payload of a derived type called `name`. -/
def ofPayload? (name : String) (payload : Json) : Option TypeSpecification :=
  match name with
  | "generic_instance" => do
    let [element, arguments] ← payload.components? ["element", "arguments"] | none
    return .genericInstance (← Json.required element) (← Json.required arguments)
  | "array" => do
    let [element, rank] ← payload.components? ["element", "rank"] | none
    return .array (← Json.required element) (← Json.orElse 1 rank)
  | "by_reference" => do
    let [element] ← payload.components? ["element"] | none
    return .byReference (← Json.required element)
  | "pointer" => do
    let [element] ← payload.components? ["element"] | none
    return .pointer (← Json.required element)
  | "function_pointer" => do
    let [returnType, parameters] ← payload.components? ["return_type", "parameters"] | none
    return .functionPointer (← Json.required returnType) (← Json.orElse [] parameters)
  | "required_modifier" => do
    let [element, modifier] ← payload.components? ["element", "modifier"] | none
    return .requiredModifier (← Json.required element) (← Json.required modifier)
  | "optional_modifier" => do
    let [element, modifier] ← payload.components? ["element", "modifier"] | none
    return .optionalModifier (← Json.required element) (← Json.required modifier)
  | _ => none

/-- Read a derived type. -/
def ofForm? (value : Json) : Option TypeSpecification := do
  let (name, some payload) ← value.variant? | none
  ofPayload? name payload

instance : JsonForm TypeSpecification where
  toJson := form
  ofJson? := ofForm?

end TypeSpecification

/-! ## Nodes -/

namespace TypeNode

/-- The written form. -/
def form : TypeNode → Json
  | .definition d => .tagged "definition" (toJson d)
  | .specification s => .tagged "specification" (toJson s)
  | .genericParameter id => .tagged "generic_parameter" (toJson id)
  | .reference fullName => .tagged "reference" (.object [("full_name", toJson fullName)])

/-- Read the payload of a reference. -/
def referencePayload? (payload : Json) : Option TypeNode := do
  let [fullName] ← payload.components? ["full_name"] | none
  return .reference (← Json.required fullName)

/-- Read a type node. -/
def ofForm? (value : Json) : Option TypeNode := do
  let (name, some payload) ← value.variant? | none
  match name with
  | "definition" => (ofJson? payload).map .definition
  | "specification" => (ofJson? payload).map .specification
  | "generic_parameter" => (ofJson? payload).map .genericParameter
  | "reference" => referencePayload? payload
  | _ => none

instance : JsonForm TypeNode where
  toJson := form
  ofJson? := ofForm?

end TypeNode

end Liveset
