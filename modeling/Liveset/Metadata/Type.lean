import Liveset.Entity

/-!
# Type nodes

The type arena holds definitions, types derived from other types, stand-ins for generic parameters
inside signatures, and references by name.
-/

set_option autoImplicit false

namespace Liveset

/-- Accessibility as seen from outside the program, least visible first. -/
inductive Visibility where
  | «private»
  | assembly
  | family
  | «public»
deriving DecidableEq, Inhabited, Repr

namespace Visibility

/-- Position from least to most visible. -/
def rank : Visibility → Nat
  | .private => 0
  | .assembly => 1
  | .family => 2
  | .public => 3

/-- The more visible of two. -/
def widest (a b : Visibility) : Visibility := if a.rank ≤ b.rank then b else a

/-- Can something with this visibility be reached from outside the program? -/
def isExternal : Visibility → Bool
  | .public | .family => true
  | _ => false

/-- The widest visibility in a list, `private` for an empty one. -/
def widestOf (visibilities : List Visibility) : Visibility :=
  visibilities.foldl widest .private

end Visibility

/-- Marks on a type definition. -/
structure TypeFlags where
  interface : Bool := false
  abstract : Bool := false
  sealed : Bool := false
  /-- An interface taken over from outside: dispatch on it needs every one of its methods. -/
  importedInterface : Bool := false
  /-- An attribute type that only informs the compiler and never reaches the output. -/
  compilerOnly : Bool := false
deriving DecidableEq, Inhabited, Repr

/-- A type with members. -/
structure TypeDefinition where
  namespaceName : String := ""
  name : String
  /-- The outer type of a nested type. -/
  declaringType : Option TypeId := none
  baseType : Option TypeId := none
  interfaces : List TypeId := []
  visibility : Visibility := .private
  flags : TypeFlags := {}
  methods : List MethodId := []
  fields : List FieldId := []
  properties : List PropertyId := []
  events : List EventId := []
  genericParameters : List GenericParameterId := []
  attributes : List AttributeId := []
  /-- The name of the foreign class this type stands for. -/
  foreignImport : Option String := none
deriving DecidableEq, Inhabited, Repr

/-- A type that is both abstract and sealed has no instances. -/
def TypeDefinition.isStatic (definition : TypeDefinition) : Bool :=
  definition.flags.abstract && definition.flags.sealed

/-- A type derived from other types. -/
inductive TypeSpecification where
  | genericInstance (element : TypeId) (arguments : List TypeId)
  | array (element : TypeId) (rank : Nat)
  | byReference (element : TypeId)
  | pointer (element : TypeId)
  | functionPointer (returnType : TypeId) (parameters : List TypeId)
  | requiredModifier (element modifier : TypeId)
  | optionalModifier (element modifier : TypeId)
deriving DecidableEq, Inhabited, Repr

/-- The type from which a specification is derived. A function pointer has none. -/
def TypeSpecification.element? : TypeSpecification → Option TypeId
  | .genericInstance element _ => some element
  | .array element _ => some element
  | .byReference element => some element
  | .pointer element => some element
  | .requiredModifier element _ => some element
  | .optionalModifier element _ => some element
  | .functionPointer _ _ => none

/-- A node of the type arena. -/
inductive TypeNode where
  | definition (definition : TypeDefinition)
  | specification (specification : TypeSpecification)
  | genericParameter (id : GenericParameterId)
  /-- A type named in full, such as `Namespace.Outer/Inner`. -/
  | reference (fullName : String)
deriving DecidableEq, Inhabited, Repr

/-- The definition inside a node, if it is one. -/
def TypeNode.definition? : TypeNode → Option TypeDefinition
  | .definition d => some d
  | _ => none

end Liveset
