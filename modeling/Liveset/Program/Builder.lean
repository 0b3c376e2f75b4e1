import Liveset.Program.Index

/-!
# Building a program step by step

Each operation adds one node and keeps the lists of its owner in step: a member is listed by the
definition of its declaring type, a parameter by its method, a generic parameter by its declarer, an
attribute by what carries it. Where the owner is not a definition, nothing is listed.

What this module delivers: the operations `addType`, `addSpecification`, `addTypeReference`,
`addGenericParameter`, `addMethod`, `addMethodReference`, `addMethodInstance`, `addParameter`,
`addField`, `addFieldReference`, `addProperty`, `addEvent`, `addAttribute`, `addProgramAttribute`
and `addEntryPoint`, each returning the handle of the new node beside the program.
-/

set_option autoImplicit false

namespace Liveset.Program

/-! ## Types -/

/-- Append a type node without touching the index. -/
def pushType (p : Program) (node : TypeNode) : TypeId × Program :=
  (⟨p.types.size⟩, { p with types := p.types.push node })

/-- Add a type definition and register its full name. -/
def addType (p : Program) (d : TypeDefinition) : TypeId × Program :=
  let (id, q) := p.pushType (.definition d)
  (id, { q with index := q.index.register (q.fullName id) id })

/-- Add a derived type. -/
def addSpecification (p : Program) (s : TypeSpecification) : TypeId × Program :=
  p.pushType (.specification s)

/-- Add a reference to a type by its full name. -/
def addTypeReference (p : Program) (fullName : String) : TypeId × Program :=
  p.pushType (.reference fullName)

/-- List a generic parameter on the type or method that declares it. -/
def listGenericParameter (p : Program) (owner : GenericOwner) (id : GenericParameterId) : Program :=
  match owner with
  | .type t =>
    p.modifyType t fun d => { d with genericParameters := d.genericParameters ++ [id] }
  | .method m =>
    p.modifyMethod m fun d => { d with genericParameters := d.genericParameters ++ [id] }

/-- Declare a generic parameter. The type handle stands for it in signatures. -/
def addGenericParameter (p : Program) (owner : GenericOwner) (name : String) :
    GenericParameterId × TypeId × Program :=
  let id : GenericParameterId := ⟨p.genericParameters.size⟩
  let p := { p with genericParameters := p.genericParameters.push { owner, name } }
  (id, (p.listGenericParameter owner id).pushType (.genericParameter id))

/-! ## Members -/

/-- Append a method node. -/
def pushMethod (p : Program) (node : MethodNode) : MethodId × Program :=
  (⟨p.methods.size⟩, { p with methods := p.methods.push node })

/-- Add a method definition and list it on its declaring type. -/
def addMethod (p : Program) (d : MethodDefinition) : MethodId × Program :=
  let (id, q) := p.pushMethod (.definition d)
  (id, q.modifyType d.declaringType fun t => { t with methods := t.methods ++ [id] })

/-- Add a reference to a method. -/
def addMethodReference (p : Program) (r : MethodReference) : MethodId × Program :=
  p.pushMethod (.reference r)

/-- Add the instance of a generic method. -/
def addMethodInstance (p : Program) (element : MethodId) (arguments : List TypeId) :
    MethodId × Program :=
  p.pushMethod (.instance element arguments)

/-- Append a parameter to a method. -/
def addParameter (p : Program) (method : MethodId) (name : String) (type : TypeId) :
    ParameterId × Program :=
  let id : ParameterId := ⟨p.parameters.size⟩
  let parameter : Parameter := { owner := .method method, name, parameterType := type }
  (id, { p with parameters := p.parameters.push parameter }.modifyMethod method
    fun d => { d with parameters := d.parameters ++ [id] })

/-- Append a field node. -/
def pushField (p : Program) (node : FieldNode) : FieldId × Program :=
  (⟨p.fields.size⟩, { p with fields := p.fields.push node })

/-- Add a field definition and list it on its declaring type. -/
def addField (p : Program) (d : FieldDefinition) : FieldId × Program :=
  let (id, q) := p.pushField (.definition d)
  (id, q.modifyType d.declaringType fun t => { t with fields := t.fields ++ [id] })

/-- Add a reference to a field. -/
def addFieldReference (p : Program) (r : FieldReference) : FieldId × Program :=
  p.pushField (.reference r)

/-- Add a property, list it on its declaring type and tag its accessors. -/
def addProperty (p : Program) (property : Property) : PropertyId × Program :=
  let id : PropertyId := ⟨p.properties.size⟩
  let q := { p with properties := p.properties.push property }.modifyType property.declaringType
    fun t => { t with properties := t.properties ++ [id] }
  (id, q.tagAccessors property.accessors)

/-- Add an event, list it on its declaring type and tag its accessors. -/
def addEvent (p : Program) (event : Event) : EventId × Program :=
  let id : EventId := ⟨p.events.size⟩
  let q := { p with events := p.events.push event }.modifyType event.declaringType
    fun t => { t with events := t.events ++ [id] }
  (id, q.tagAccessors event.accessors)

/-! ## Attributes and entry points -/

/-- List an attribute on the entity that carries it. References, instances and foreign entities
carry none. -/
def listAttribute (p : Program) (owner : Entity) (id : AttributeId) : Program :=
  match owner with
  | .type t => p.modifyType t fun d => { d with attributes := d.attributes ++ [id] }
  | .method m => p.modifyMethod m fun d => { d with attributes := d.attributes ++ [id] }
  | .field f => p.modifyField f fun d => { d with attributes := d.attributes ++ [id] }
  | .property q =>
    let listed := p.properties.modify q.index fun d => { d with attributes := d.attributes ++ [id] }
    { p with properties := listed }
  | .event e =>
    let listed := p.events.modify e.index fun d => { d with attributes := d.attributes ++ [id] }
    { p with events := listed }
  | .parameter a =>
    let listed := p.parameters.modify a.index fun d => { d with attributes := d.attributes ++ [id] }
    { p with parameters := listed }
  | .genericParameter g =>
    let listed :=
      p.genericParameters.modify g.index fun d => { d with attributes := d.attributes ++ [id] }
    { p with genericParameters := listed }
  | .attribute _ | .foreignClass _ | .foreignField _ _ | .foreignMethod _ _ => p

/-- Append an attribute that nothing carries yet. -/
def pushAttribute (p : Program) (a : Attribute) : AttributeId × Program :=
  (⟨p.attributes.size⟩, { p with attributes := p.attributes.push a })

/-- Add an attribute to an entity. -/
def addAttribute (p : Program) (owner : Entity) (a : Attribute) : AttributeId × Program :=
  let (id, q) := p.pushAttribute a
  (id, q.listAttribute owner id)

/-- Add an attribute to the program as a whole. -/
def addProgramAttribute (p : Program) (a : Attribute) : AttributeId × Program :=
  let (id, q) := p.pushAttribute a
  (id, { q with programAttributes := q.programAttributes ++ [id] })

/-- Mark an entity as an entry point, once. -/
def addEntryPoint (p : Program) (entity : Entity) : Program :=
  if entity ∈ p.entryPoints then p else { p with entryPoints := p.entryPoints ++ [entity] }

end Liveset.Program
