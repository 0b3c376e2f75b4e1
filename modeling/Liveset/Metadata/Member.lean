import Liveset.Metadata.Type
import Liveset.Metadata.Code

/-!
# Members, parameters and generic parameters

Methods, fields, properties and events, with the parameters they take. A method or field node is a
definition or a reference from a call site; a method node may also be the instance of a generic one.
-/

set_option autoImplicit false

namespace Liveset

/-- The foreign member that a member stands for, by class, name and type descriptor. -/
structure MemberImport where
  className : String
  memberName : String
  descriptor : String
deriving DecidableEq, Inhabited, Repr

/-! ## Methods -/

/-- The part a method plays for a property or event. -/
inductive Semantics where
  | none
  | getter
  | setter
  | addOn
  | removeOn
  | fire
deriving DecidableEq, Inhabited, Repr

/-- Marks on a method definition. -/
structure MethodFlags where
  static : Bool := false
  virtual : Bool := false
  abstract : Bool := false
  /-- Carried out by the platform; uses of it are not followed. -/
  native : Bool := false
deriving DecidableEq, Inhabited, Repr

/-- A method with its code. -/
structure MethodDefinition where
  declaringType : TypeId
  name : String
  returnType : TypeId
  parameters : List ParameterId := []
  genericParameters : List GenericParameterId := []
  visibility : Visibility := .private
  flags : MethodFlags := {}
  semantics : Semantics := .none
  /-- Interface methods it carries out explicitly. -/
  overrides : List MethodId := []
  body : Option MethodBody := none
  attributes : List AttributeId := []
  imported : Option MemberImport := none
deriving Inhabited, Repr

/-- A reference to a method, by declaring type, name and parameter types. -/
structure MethodReference where
  declaringType : TypeId
  name : String
  returnType : TypeId
  parameterTypes : List TypeId := []
deriving DecidableEq, Inhabited, Repr

/-- A node of the method arena. -/
inductive MethodNode where
  | definition (definition : MethodDefinition)
  | instance (element : MethodId) (arguments : List TypeId)
  | reference (reference : MethodReference)
deriving Inhabited, Repr

/-- The definition inside a node, if it is one. -/
def MethodNode.definition? : MethodNode → Option MethodDefinition
  | .definition d => some d
  | _ => none

/-! ## Fields -/

/-- A field with its declaration. -/
structure FieldDefinition where
  declaringType : TypeId
  name : String
  fieldType : TypeId
  visibility : Visibility := .private
  static : Bool := false
  /-- A resource number that the platform fills in; uses of it are not followed. -/
  resourceId : Bool := false
  attributes : List AttributeId := []
  imported : Option MemberImport := none
deriving DecidableEq, Inhabited, Repr

/-- A reference to a field, by declaring type and name. -/
structure FieldReference where
  declaringType : TypeId
  name : String
  fieldType : TypeId
deriving DecidableEq, Inhabited, Repr

/-- A node of the field arena. -/
inductive FieldNode where
  | definition (definition : FieldDefinition)
  | reference (reference : FieldReference)
deriving DecidableEq, Inhabited, Repr

/-- The definition inside a node, if it is one. -/
def FieldNode.definition? : FieldNode → Option FieldDefinition
  | .definition d => some d
  | _ => none

/-! ## Properties and events -/

/-- A property, with the methods that read and write it. -/
structure Property where
  declaringType : TypeId
  name : String
  propertyType : TypeId
  parameters : List ParameterId := []
  getter : Option MethodId := none
  setter : Option MethodId := none
  attributes : List AttributeId := []
deriving DecidableEq, Inhabited, Repr

/-- The accessor slots of a property with the part each plays. -/
def Property.accessors (property : Property) : List (Option MethodId × Semantics) :=
  [(property.getter, .getter), (property.setter, .setter)]

/-- An event, with the methods that subscribe to it, unsubscribe from it and raise it. -/
structure Event where
  declaringType : TypeId
  name : String
  eventType : TypeId
  add : Option MethodId := none
  remove : Option MethodId := none
  invoke : Option MethodId := none
  attributes : List AttributeId := []
deriving DecidableEq, Inhabited, Repr

/-- The accessor slots of an event with the part each plays. -/
def Event.accessors (event : Event) : List (Option MethodId × Semantics) :=
  [(event.add, .addOn), (event.remove, .removeOn), (event.invoke, .fire)]

/-! ## Parameters -/

/-- What declares a parameter. -/
inductive ParameterOwner where
  | method (id : MethodId)
  | property (id : PropertyId)
deriving DecidableEq, Inhabited, Repr

/-- A parameter of a method or of an indexed property. -/
structure Parameter where
  owner : ParameterOwner
  name : String := ""
  parameterType : TypeId
  attributes : List AttributeId := []
deriving DecidableEq, Inhabited, Repr

/-- What declares a generic parameter. -/
inductive GenericOwner where
  | type (id : TypeId)
  | method (id : MethodId)
deriving DecidableEq, Inhabited, Repr

/-- A generic parameter of a type or method. -/
structure GenericParameter where
  owner : GenericOwner
  name : String
  constraints : List TypeId := []
  attributes : List AttributeId := []
deriving DecidableEq, Inhabited, Repr

end Liveset
