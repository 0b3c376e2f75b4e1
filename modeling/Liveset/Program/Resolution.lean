import Liveset.Program.Name

/-!
# Resolution

From a node to the definition it denotes. A derived type denotes what its element denotes, a
reference what its name is registered for; a generic parameter denotes nothing. A method reference
is matched by name and by the names of its parameter types, a field reference by name.

A generic instance of a method borrows its name, declaring type and signature from the method it
instantiates. `Program.uninstantiated?` finds that method. A chain of instances that ends looks at
each method node at most once, so the number of nodes bounds the search. A chain may also lead back
to itself, and then the search for its end does not return. It has no result here, just as that for
a handle outside the arena; `Program.isEndless` tells the two apart.

What this module delivers: `resolveType?`, `isEndless`, `methodName?`, `methodDeclaringType?`,
`methodSignature?`, `parameterNames`, `resolveMethod?` and `resolveField?`.
-/

set_option autoImplicit false

namespace Liveset.Program

/-! ## Types -/

/-- How many nodes resolution looks at. -/
def resolutionDepth : Nat := 64

/-- The definition that a type denotes, looking at no more than `fuel` nodes. -/
def resolveTypeWithin (p : Program) : Nat → TypeId → Option TypeId
  | 0, _ => none
  | fuel + 1, id =>
    match p.type? id with
    | some (.definition _) => some id
    | some (.reference fullName) => p.findType? fullName
    | some (.genericParameter _) => none
    | some (.specification s) => s.element?.bind (p.resolveTypeWithin fuel)
    | none => none

/-- The definition that a type denotes. -/
def resolveType? (p : Program) (id : TypeId) : Option TypeId :=
  p.resolveTypeWithin resolutionDepth id

/-! ## Methods -/

/-- Return type and parameter types. -/
structure Signature where
  returnType : TypeId
  parameterTypes : List TypeId
deriving DecidableEq, Inhabited, Repr

/-- The first node that is not an instance, looking at no more than `fuel` nodes. -/
def uninstantiatedWithin (p : Program) : Nat → MethodId → Option MethodNode
  | 0, _ => none
  | fuel + 1, id =>
    match p.method? id with
    | some (.instance element _) => p.uninstantiatedWithin fuel element
    | node? => node?

/-- The definition or reference at the end of a chain of instances. There is none if the chain leads
out of the arena or does not end. -/
def uninstantiated? (p : Program) (id : MethodId) : Option MethodNode :=
  p.uninstantiatedWithin (p.methods.size + 1) id

/-- Are the first `count` nodes of the chain from a method all instances? -/
def outlasts (p : Program) : Nat → MethodId → Bool
  | 0, _ => true
  | count + 1, id =>
    match p.method? id with
    | some (.instance element _) => p.outlasts count element
    | _ => false

/-- Does the chain of instances from a method lead back to itself? Following it does not return. -/
def isEndless (p : Program) (id : MethodId) : Bool := p.outlasts (p.methods.size + 1) id

/-- The name of a method, if the chain from it ends at one. -/
def methodName? (p : Program) (id : MethodId) : Option String :=
  match p.uninstantiated? id with
  | some (.definition d) => some d.name
  | some (.reference r) => some r.name
  | _ => none

/-- The declaring type of a method, as its node names it. -/
def methodDeclaringType? (p : Program) (id : MethodId) : Option TypeId :=
  match p.uninstantiated? id with
  | some (.definition d) => some d.declaringType
  | some (.reference r) => some r.declaringType
  | _ => none

/-- The types of the parameters of a definition; handles outside the arena are left out. -/
def parameterTypes (p : Program) (d : MethodDefinition) : List TypeId :=
  d.parameters.filterMap fun id => (p.parameter? id).map (·.parameterType)

/-- The signature of a method. -/
def methodSignature? (p : Program) (id : MethodId) : Option Signature :=
  match p.uninstantiated? id with
  | some (.definition d) => some ⟨d.returnType, p.parameterTypes d⟩
  | some (.reference r) => some ⟨r.returnType, r.parameterTypes⟩
  | _ => none

/-- The names of the parameter types of a definition under a binding of generic parameters. -/
def parameterNames (p : Program) (s : Substitution) (d : MethodDefinition) : List String :=
  (p.parameterTypes d).map (p.nameWith s)

/-- Does a reference name this method, by its name and its parameter types? -/
def isReferenced (p : Program) (r : MethodReference) (id : MethodId) : Bool :=
  match p.methodDefinition? id with
  | some d => d.name = r.name && p.parameterNames {} d = r.parameterTypes.map p.fullName
  | none => false

/-- The definition that a reference denotes: the first match in the type that declares it. -/
def resolveMethodReference? (p : Program) (r : MethodReference) : Option MethodId := do
  let owner ← p.typeDefinition? (← p.resolveType? r.declaringType)
  owner.methods.find? (p.isReferenced r)

/-- The definition that a method denotes. An instance of an instance denotes nothing. -/
def resolveMethod? (p : Program) (id : MethodId) : Option MethodId :=
  match p.method? id with
  | some (.definition _) => some id
  | some (.reference r) => p.resolveMethodReference? r
  | some (.instance element _) =>
    match p.method? element with
    | some (.definition _) => some element
    | some (.reference r) => p.resolveMethodReference? r
    | _ => none
  | none => none

/-! ## Fields -/

/-- Does a reference name this field? -/
def isReferencedField (p : Program) (r : FieldReference) (id : FieldId) : Bool :=
  match p.fieldDefinition? id with
  | some d => d.name = r.name
  | none => false

/-- The definition that a field denotes. -/
def resolveField? (p : Program) (id : FieldId) : Option FieldId :=
  match p.field? id with
  | some (.definition _) => some id
  | some (.reference r) => do
    let owner ← p.typeDefinition? (← p.resolveType? r.declaringType)
    owner.fields.find? (p.isReferencedField r)
  | none => none

end Liveset.Program
