import Liveset.Program.Description
import Liveset.Reach.CodeRule

/-!
# Expansion rules

What each kind of entity needs. The rules are functions of the program, of the inclusion test and of
the support namespace; only the rule of a foreign class looks at the repository, for the names of
its parents. A handle outside its arena needs nothing.

What this module delivers: `Scene`, the fixed surroundings of a pass, and `Scene.needs`.
-/

set_option autoImplicit false

namespace Liveset

/-- What stays fixed during a pass. -/
structure Scene where
  program : Program
  /-- Is a member of a reached type kept though nothing refers to it? -/
  includes : Member → Bool
  support : Support := {}

namespace Program

/-! ## Attributes -/

/-- Does the attribute only inform the compiler? -/
def isCompilerOnly (p : Program) (id : AttributeId) : Bool :=
  ((((p.attribute? id).bind fun a => p.methodDeclaringType? a.constructor).bind
    p.resolveType?).bind p.typeDefinition?).any (·.flags.compilerOnly)

/-- The attributes of a list that reach the output. -/
def attributeNeeds (p : Program) (attributes : List AttributeId) : List Need :=
  (attributes.filter fun id => !p.isCompilerOnly id).map fun id => .entity (.attribute id)

/-- Do values declared with a type of this name hold types? -/
def isTypeValued (name : String) : Bool := name = "System.Type" || name = "System.Type[]"

/-- The types named in a constant that is declared with the type `declared`. -/
def typeValueNeeds (p : Program) (declared : TypeId) (value : Constant) : List Need :=
  if isTypeValued (p.fullName declared) then value.types.map fun id => .entity (.type id) else []

/-- The definitions in which the named arguments of an attribute are looked up. -/
def attributeHierarchy (p : Program) (constructor : MethodId) : List TypeDefinition :=
  match (p.methodDeclaringType? constructor).bind p.resolveType? with
  | none => []
  | some declaring => (declaring :: p.baseTypes declaring).filterMap p.typeDefinition?

/-- What the arguments of the constructor need. -/
def positionalNeeds (p : Program) (a : Attribute) : List Need :=
  match p.methodSignature? a.constructor with
  | none => []
  | some signature =>
    (signature.parameterTypes.zip a.arguments).flatMap
      fun (declared, argument) => p.typeValueNeeds declared argument.value

/-- What a named argument needs beside its type: the members it is meant for and the types in it. -/
def namedNeeds (p : Program) (members : List Entity) (named : NamedArgument) : List Need :=
  .entity (.type named.argument.valueType) ::
    (members.map .entity ++ p.typeValueNeeds named.argument.valueType named.argument.value)

/-- The field definitions with a name in some of the definitions. -/
def fieldsCalled (p : Program) (hierarchy : List TypeDefinition) (name : String) : List Entity :=
  hierarchy.flatMap fun d =>
    (d.fields.filter fun id => (p.fieldDefinition? id).any (·.name = name)).map .field

/-- The properties with a name in some of the definitions. -/
def propertiesCalled (p : Program) (hierarchy : List TypeDefinition) (name : String) :
    List Entity :=
  hierarchy.flatMap fun d =>
    (d.properties.filter fun id => (p.property? id).any (·.name = name)).map .property

/-- What an attribute needs. -/
def attributeRule (p : Program) (a : Attribute) : List Need :=
  let hierarchy := p.attributeHierarchy a.constructor
  .entity (.method a.constructor) :: (p.positionalNeeds a ++
    a.fields.flatMap (fun named => p.namedNeeds (p.fieldsCalled hierarchy named.name) named) ++
    a.properties.flatMap
      (fun named => p.namedNeeds (p.propertiesCalled hierarchy named.name) named))

/-! ## Types without members -/

/-- A need for each of several types. -/
def typeNeeds (types : List TypeId) : List Need := types.map fun id => .entity (.type id)

/-- What a derived type needs. The parameter types of a function pointer are not followed. -/
def specificationRule : TypeSpecification → List Need
  | .genericInstance element arguments => typeNeeds (element :: arguments)
  | .array element _ => typeNeeds [element]
  | .byReference element => typeNeeds [element]
  | .pointer element => typeNeeds [element]
  | .functionPointer returnType _ => typeNeeds [returnType]
  | .requiredModifier element modifier => typeNeeds [element, modifier]
  | .optionalModifier element modifier => typeNeeds [element, modifier]

/-- The type that is wrapped when this one is an instance of the type whose instances may be
absent. -/
def nullableUse? (p : Program) (id : TypeId) : Option TypeId :=
  match p.type? id with
  | some (.specification (.genericInstance element arguments)) =>
    if p.isNullable element then arguments.head?.bind p.resolveType? else none
  | _ => none

/-! ## Accessors -/

/-- Does the property name the method as its getter or setter? -/
def isPropertyOf (p : Program) (method : MethodId) (id : PropertyId) : Bool :=
  (p.property? id).any fun d => d.getter = some method || d.setter = some method

/-- Does the event name the method as one of its accessors? -/
def isEventOf (p : Program) (method : MethodId) (id : EventId) : Bool :=
  (p.event? id).any fun d =>
    d.add = some method || d.remove = some method || d.invoke = some method

/-- An accessor keeps its property or event, looked up on its declaring type. -/
def accessorNeeds (p : Program) (id : MethodId) (d : MethodDefinition) : List Need :=
  match p.typeDefinition? d.declaringType with
  | none => []
  | some owner =>
    match d.semantics with
    | .none => []
    | .getter | .setter =>
      (owner.properties.find? (p.isPropertyOf id)).toList.map fun q => .entity (.property q)
    | .addOn | .removeOn | .fire =>
      (owner.events.find? (p.isEventOf id)).toList.map fun e => .entity (.event e)

end Program

namespace Scene

/-! ## Generic declarations -/

/-- The support types that a generic declaration relies on. -/
def genericSupport (scene : Scene) (owner : GenericOwner) : List String :=
  match owner with
  | .type id =>
    if (scene.program.typeDefinition? id).any (·.isStatic) then ["TypeHelper"]
    else ["TypeHelper", "GenericInstanceAnnotation", "GenericTypeParameterAnnotation"]
  | .method _ => ["TypeHelper", "GenericMethodParameterAnnotation"]

/-- A need for each of several support types. -/
def supportNeeds (scene : Scene) (names : List String) : Except SupportError (List Need) := do
  let types ← names.mapM (scene.support.type scene.program)
  return Program.typeNeeds types

/-- What a declaration with these generic parameters needs for them. -/
def genericNeeds (scene : Scene) (owner : GenericOwner) (parameters : List GenericParameterId) :
    Except SupportError (List Need) := do
  if parameters.isEmpty then return []
  let support ← scene.supportNeeds (scene.genericSupport owner)
  return support ++ parameters.map fun id => .entity (.genericParameter id)

/-! ## Type definitions -/

/-- What an attribute type or an enumeration needs on top. -/
def specialNeeds (scene : Scene) (id : TypeId) : Except SupportError (List Need) := do
  let p := scene.program
  if p.isAttribute id then
    scene.supportNeeds ["IAttribute", "IAttributes", "IAnnotationType"]
  else if p.isEnum id then
    let integers ← scene.support.methodsNamed p "Boxing" "UnboxInteger"
    let longs ← scene.support.methodsNamed p "Boxing" "UnboxLong"
    return Support.needs integers ++ Support.needs longs
  else return []

/-- The members that are kept though nothing refers to them. -/
def includedMembers (scene : Scene) (d : TypeDefinition) : List Member :=
  (d.events.map Member.event ++ d.fields.map Member.field ++ d.methods.map Member.method ++
    d.properties.map Member.property).filter scene.includes

/-- What a type definition needs. -/
def typeDefinitionRule (scene : Scene) (id : TypeId) (d : TypeDefinition) :
    Except SupportError (List Need) := do
  let p := scene.program
  let generic ← scene.genericNeeds (.type id) d.genericParameters
  let special ← scene.specialNeeds id
  let constructors := (p.defaultConstructor? id).toList ++ (p.classConstructor? id).toList
  let dispatched := if d.flags.interface && d.flags.importedInterface then d.methods else []
  return generic ++
    Program.typeNeeds (d.baseType.toList ++ d.declaringType.toList ++ d.interfaces) ++ special ++
    Support.needs constructors ++ (scene.includedMembers d).map (fun m => .entity m.entity) ++
    p.attributeNeeds d.attributes ++ d.foreignImport.toList.map .foreignClass ++
    Support.needs dispatched

/-- What a type needs. -/
def typeRule (scene : Scene) (id : TypeId) : Except SupportError (List Need) :=
  match scene.program.type? id with
  | some (.definition d) => scene.typeDefinitionRule id d
  | some (.specification s) => .ok (Program.specificationRule s)
  | some (.genericParameter g) => .ok [.entity (.genericParameter g)]
  | some (.reference _) => .ok (Program.typeNeeds (scene.program.resolveType? id).toList)
  | none => .ok []

/-! ## Members -/

/-- What a method definition needs. -/
def methodDefinitionRule (scene : Scene) (id : MethodId) (d : MethodDefinition) :
    Except SupportError (List Need) := do
  let p := scene.program
  let generic ← scene.genericNeeds (.method id) d.genericParameters
  let code ← codeNeeds scene.support p d.body
  return [.entity (.type d.returnType)] ++ d.parameters.map (fun a => .entity (.parameter a)) ++
    generic ++ code ++ Support.needs d.overrides ++
    (if d.flags.virtual then [.overridden id] else []) ++ p.attributeNeeds d.attributes ++
    d.imported.toList.map (fun i => .foreignMember .method i (.method id)) ++ p.accessorNeeds id d

/-- What a method needs. -/
def methodRule (scene : Scene) (id : MethodId) : Except SupportError (List Need) :=
  match scene.program.method? id with
  | some (.definition d) => scene.methodDefinitionRule id d
  | some (.instance element arguments) =>
    .ok (.entity (.method element) :: Program.typeNeeds arguments)
  | some (.reference r) =>
    .ok (Program.typeNeeds (r.returnType :: r.parameterTypes) ++
      Support.needs (scene.program.resolveMethod? id).toList)
  | none => .ok []

/-- What a field needs. -/
def fieldRule (p : Program) (id : FieldId) : List Need :=
  match p.field? id with
  | some (.definition d) =>
    .entity (.type d.fieldType) :: (p.attributeNeeds d.attributes ++
      d.imported.toList.map fun i => .foreignMember .field i (.field id))
  | some (.reference r) =>
    .entity (.type r.fieldType) ::
      (p.resolveField? id).toList.map fun f => .entity (.field f)
  | none => []

/-- What a property needs. -/
def propertyRule (p : Program) (id : PropertyId) : List Need :=
  match p.property? id with
  | some d =>
    .entity (.type d.propertyType) :: (d.parameters.map (fun a => .entity (.parameter a)) ++
      p.attributeNeeds d.attributes)
  | none => []

/-- What an event needs. -/
def eventRule (p : Program) (id : EventId) : List Need :=
  match p.event? id with
  | some d => .entity (.type d.eventType) :: p.attributeNeeds d.attributes
  | none => []

/-- What a parameter needs. -/
def parameterRule (p : Program) (id : ParameterId) : List Need :=
  match p.parameter? id with
  | some d => .entity (.type d.parameterType) :: p.attributeNeeds d.attributes
  | none => []

/-- What a generic parameter needs. -/
def genericParameterRule (p : Program) (id : GenericParameterId) : List Need :=
  match p.genericParameter? id with
  | some d => Program.typeNeeds d.constraints ++ p.attributeNeeds d.attributes
  | none => []

/-! ## All entities -/

/-- What an entity needs. The owner of an entity is no part of it: a pass reaches owners first. -/
def needs (scene : Scene) (r : Repository) : Entity → Except SupportError (List Need)
  | .type id => scene.typeRule id
  | .method id => scene.methodRule id
  | .field id => .ok (fieldRule scene.program id)
  | .property id => .ok (propertyRule scene.program id)
  | .event id => .ok (eventRule scene.program id)
  | .parameter id => .ok (parameterRule scene.program id)
  | .genericParameter id => .ok (genericParameterRule scene.program id)
  | .attribute id => .ok (((scene.program.attribute? id).map scene.program.attributeRule).getD [])
  | .foreignClass id => .ok (((r.class? id).map (·.parents.map .foreignClass)).getD [])
  | .foreignField _ _ | .foreignMethod _ _ => .ok []

/-- Apply the rule of an entity and load the foreign classes it asks for. -/
def expand (scene : Scene) (r : Repository) (entity : Entity) : Except SupportError Expansion :=
  (scene.needs r entity).map (Need.supply r)

end Scene

end Liveset
