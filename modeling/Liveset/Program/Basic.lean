import Liveset.Metadata.Member
import Liveset.Metadata.Attribute

/-!
# Program graphs

A program keeps every kind of node in an arena of its own. Nodes refer to each other by handle, so
any cycle of references is harmless and a handle may point outside its arena. Beside the arenas
stands an index from the full name of a type definition to its handle; it is derived data, and the
first definition of a name keeps it.

What this module delivers: `NameIndex`, `Program`, the partial accessors of its arenas, and
`ProgramStats`.
-/

set_option autoImplicit false

namespace Liveset

/-! ## The name index -/

/-- Full names of type definitions with their handles, newest first. No name occurs twice. -/
structure NameIndex where
  entries : List (String × TypeId) := []
deriving DecidableEq, Inhabited, Repr

namespace NameIndex

/-- The definition registered under `name`. -/
def find? (index : NameIndex) (name : String) : Option TypeId := index.entries.lookup name

/-- Register a definition, unless its name is taken. -/
def register (index : NameIndex) (name : String) (id : TypeId) : NameIndex :=
  match index.find? name with
  | some _ => index
  | none => ⟨(name, id) :: index.entries⟩

/-- How many names are registered. -/
def size (index : NameIndex) : Nat := index.entries.length

end NameIndex

/-! ## Programs -/

/-- A program graph. -/
structure Program where
  types : Array TypeNode := #[]
  methods : Array MethodNode := #[]
  fields : Array FieldNode := #[]
  properties : Array Property := #[]
  events : Array Event := #[]
  parameters : Array Parameter := #[]
  genericParameters : Array GenericParameter := #[]
  attributes : Array Attribute := #[]
  /-- Attributes of the program as a whole. -/
  programAttributes : List AttributeId := []
  /-- Entities that whoever built the program marked as entry points. -/
  entryPoints : List Entity := []
  /-- Full names of the type definitions. -/
  index : NameIndex := {}
deriving Inhabited, Repr

namespace Program

/-! ## Access by handle -/

/-- The type node of a handle. -/
def type? (p : Program) (id : TypeId) : Option TypeNode := p.types[id.index]?

/-- The type definition of a handle; a reference is not followed. -/
def typeDefinition? (p : Program) (id : TypeId) : Option TypeDefinition :=
  (p.type? id).bind TypeNode.definition?

/-- The method node of a handle. -/
def method? (p : Program) (id : MethodId) : Option MethodNode := p.methods[id.index]?

/-- The method definition of a handle; instances and references are not followed. -/
def methodDefinition? (p : Program) (id : MethodId) : Option MethodDefinition :=
  (p.method? id).bind MethodNode.definition?

/-- The field node of a handle. -/
def field? (p : Program) (id : FieldId) : Option FieldNode := p.fields[id.index]?

/-- The field definition of a handle; a reference is not followed. -/
def fieldDefinition? (p : Program) (id : FieldId) : Option FieldDefinition :=
  (p.field? id).bind FieldNode.definition?

/-- The property of a handle. -/
def property? (p : Program) (id : PropertyId) : Option Property := p.properties[id.index]?

/-- The event of a handle. -/
def event? (p : Program) (id : EventId) : Option Event := p.events[id.index]?

/-- The parameter of a handle. -/
def parameter? (p : Program) (id : ParameterId) : Option Parameter := p.parameters[id.index]?

/-- The generic parameter of a handle. -/
def genericParameter? (p : Program) (id : GenericParameterId) : Option GenericParameter :=
  p.genericParameters[id.index]?

/-- The attribute of a handle. -/
def attribute? (p : Program) (id : AttributeId) : Option Attribute := p.attributes[id.index]?

/-- The type definition registered under a full name. -/
def findType? (p : Program) (fullName : String) : Option TypeId := p.index.find? fullName

end Program

/-! ## Sizes -/

/-- Arena sizes; `typeDefinitions` counts the registered names. -/
structure ProgramStats where
  types : Nat
  typeDefinitions : Nat
  methods : Nat
  fields : Nat
  properties : Nat
  events : Nat
  attributes : Nat
deriving DecidableEq, Inhabited, Repr

/-- The sizes of a program. -/
def Program.stats (p : Program) : ProgramStats where
  types := p.types.size
  typeDefinitions := p.index.size
  methods := p.methods.size
  fields := p.fields.size
  properties := p.properties.size
  events := p.events.size
  attributes := p.attributes.size

end Liveset
