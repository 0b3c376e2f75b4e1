import Liveset.Program.Resolution

/-!
# The base chain of a type

The base types of a definition, nearest first, as far as they resolve and until one comes up twice.
The chain tells whether a type is an attribute type, and along it the method that a virtual method
overrides is looked up.

Each type on the chain is a node of the arena that was not on it before, except that the last one
may lie outside; one more than the number of type nodes therefore bounds every walk.

What this module delivers: `baseTypes`, the tests `isAttribute`, `isEnum`, `isNullable` and
`isGenericParameterArray`, the special methods `defaultConstructor?` and `classConstructor?`, and
`overridden?`.
-/

set_option autoImplicit false

namespace Liveset.Program

/-! ## The chain -/

/-- The base type of a definition, as its node names it. -/
def baseReference? (p : Program) (id : TypeId) : Option TypeId :=
  (p.typeDefinition? id).bind (·.baseType)

/-- The chain from the type that `reference` denotes, leaving out what was seen before. -/
def baseTypesFrom (p : Program) : Nat → List TypeId → Option TypeId → List TypeId
  | 0, _, _ => []
  | fuel + 1, seen, reference =>
    match reference.bind p.resolveType? with
    | none => []
    | some base =>
      if base ∈ seen then []
      else base :: p.baseTypesFrom fuel (base :: seen) (p.baseReference? base)

/-- The definitions of the base chain, nearest first. -/
def baseTypes (p : Program) (id : TypeId) : List TypeId :=
  p.baseTypesFrom (p.types.size + 1) [id] (p.baseReference? id)

/-! ## Tests -/

/-- Does the type derive from the attribute type? -/
def isAttribute (p : Program) (id : TypeId) : Bool :=
  match p.findType? "System.Attribute" with
  | some root => root ∈ p.baseTypes id
  | none => false

/-- Is the type an enumeration, by the name of its base type? -/
def isEnum (p : Program) (id : TypeId) : Bool :=
  match p.baseReference? id with
  | some base => p.fullName base = "System.Enum"
  | none => false

/-- The full name of the type whose instances may be absent. -/
def nullableName : String := "System.Nullable`1"

/-- Is this the type whose instances may be absent, or something that denotes it? -/
def isNullable (p : Program) (id : TypeId) : Bool :=
  p.fullName id = nullableName ||
    match p.resolveType? id with
    | some target => p.fullName target = nullableName
    | none => false

/-- Is this an array of a generic parameter? -/
def isGenericParameterArray (p : Program) (id : TypeId) : Bool :=
  match p.type? id with
  | some (.specification (.array element _)) =>
    match p.type? element with
    | some (.genericParameter _) => true
    | _ => false
  | _ => false

/-! ## Constructors -/

/-- Is this a constructor of instances that takes no parameters? -/
def isDefaultConstructor (p : Program) (id : MethodId) : Bool :=
  match p.methodDefinition? id with
  | some d => d.name = ".ctor" && !d.flags.static && d.parameters.isEmpty
  | none => false

/-- Is this the method that initialises a type? -/
def isClassConstructor (p : Program) (id : MethodId) : Bool :=
  match p.methodDefinition? id with
  | some d => d.name = ".cctor" && d.flags.static
  | none => false

/-- The first constructor of instances that takes no parameters. -/
def defaultConstructor? (p : Program) (id : TypeId) : Option MethodId :=
  (p.typeDefinition? id).bind fun d => d.methods.find? p.isDefaultConstructor

/-- The first method that initialises the type. -/
def classConstructor? (p : Program) (id : TypeId) : Option MethodId :=
  (p.typeDefinition? id).bind fun d => d.methods.find? p.isClassConstructor

/-! ## Overriding -/

/-- The binding of a base type's generic parameters to the arguments of the instance by which
`reference` names it. The arguments are spelled under `outer`, which binds the parameters of the
deriving type. Of two arguments for one parameter the later one counts. -/
def baseBinding (p : Program) (reference : TypeId) (base : TypeDefinition)
    (outer : Substitution) : Substitution :=
  match p.type? reference with
  | some (.specification (.genericInstance _ arguments)) =>
    ⟨((base.genericParameters.zip arguments).map fun (parameter, argument) =>
      (parameter, p.nameWith outer argument)).reverse⟩
  | _ => {}

/-- Is this a virtual method called `name` whose parameter types have the given names? -/
def isOverridable (p : Program) (binding : Substitution) (name : String) (signature : List String)
    (id : MethodId) : Bool :=
  match p.methodDefinition? id with
  | some d => d.flags.virtual && d.name = name && p.parameterNames binding d = signature
  | none => false

/-- The nearest overridable method from the type that `reference` denotes upwards. -/
def overriddenFrom (p : Program) (name : String) (signature : List String) :
    Nat → List TypeId → Substitution → Option TypeId → Option MethodId
  | 0, _, _, _ => none
  | _ + 1, _, _, none => none
  | fuel + 1, seen, outer, some reference =>
    match p.resolveType? reference with
    | none => none
    | some base =>
      if base ∈ seen then none
      else match p.typeDefinition? base with
        | none => none
        | some d =>
          let binding := p.baseBinding reference d outer
          match d.methods.find? (p.isOverridable binding name signature) with
          | some found => some found
          | none => p.overriddenFrom name signature fuel (base :: seen) binding d.baseType

/-- The nearest method up the base chain that a virtual method overrides: same name, same parameter
types once the generic parameters of the base types are bound to the arguments that the deriving
types supply. -/
def overridden? (p : Program) (id : MethodId) : Option MethodId := do
  let d ← p.methodDefinition? id
  if d.flags.virtual then
    let declaring ← p.typeDefinition? d.declaringType
    p.overriddenFrom d.name (p.parameterNames {} d) (p.types.size + 1) [d.declaringType] {}
      declaring.baseType
  else none

end Liveset.Program
