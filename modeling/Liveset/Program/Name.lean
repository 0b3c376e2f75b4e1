import Liveset.Program.Basic

/-!
# Names of types

The full name of a type node in metadata notation: `Namespace.Name` for a definition, `Outer/Inner`
for a nested one, `List<Int32>` for an instance, `T[,]` for an array of rank two, and so on.

Specifications may be built on each other in a circle, so a name is cut off: below 64 nested nodes
it continues as `?`. A binding of generic parameters to texts can be laid over the names, which is
how the signature of a generic base type is compared with that of a type derived from an instance of
it.

What this module delivers: `Substitution`, `Program.nameWith` and `Program.fullName`.
-/

set_option autoImplicit false

namespace Liveset

/-- Texts bound to generic parameters. Of two bindings of one parameter the first counts. -/
structure Substitution where
  bindings : List (GenericParameterId × String) := []
deriving DecidableEq, Inhabited, Repr

/-- The text bound to a generic parameter. -/
def Substitution.text? (s : Substitution) (id : GenericParameterId) : Option String :=
  s.bindings.lookup id

namespace Program

/-- How many nested nodes a name spells out. -/
def nameDepth : Nat := 65

/-- The name of a definition, given the name of its outer type. -/
def definitionName (outer? : Option String) (d : TypeDefinition) : String :=
  match outer? with
  | some outer => outer ++ "/" ++ d.name
  | none => if d.namespaceName = "" then d.name else d.namespaceName ++ "." ++ d.name

/-- The name of a derived type, given the names of the types it is built from. -/
def specificationName (name : TypeId → String) : TypeSpecification → String
  | .genericInstance element arguments =>
    name element ++ "<" ++ String.intercalate "," (arguments.map name) ++ ">"
  | .array element rank =>
    name element ++ "[" ++ String.ofList (List.replicate (rank - 1) ',') ++ "]"
  | .byReference element => name element ++ "&"
  | .pointer element => name element ++ "*"
  | .functionPointer returnType parameters =>
    "method " ++ name returnType ++ " *(" ++ String.intercalate "," (parameters.map name) ++ ")"
  | .requiredModifier element modifier => name element ++ " modreq(" ++ name modifier ++ ")"
  | .optionalModifier element modifier => name element ++ " modopt(" ++ name modifier ++ ")"

/-- The name of a generic parameter: the text bound to it, or its own name. -/
def genericName (p : Program) (s : Substitution) (id : GenericParameterId) : String :=
  match s.text? id with
  | some text => text
  | none => ((p.genericParameter? id).map (·.name)).getD ""

/-- The name of a type node that spells out at most `depth` nested nodes. A handle outside the arena
has the empty name. -/
def nameWithin (p : Program) (s : Substitution) : Nat → TypeId → String
  | 0, _ => "?"
  | depth + 1, id =>
    match p.type? id with
    | some (.definition d) => definitionName (d.declaringType.map (p.nameWithin s depth)) d
    | some (.reference fullName) => fullName
    | some (.genericParameter g) => p.genericName s g
    | some (.specification t) => specificationName (p.nameWithin s depth) t
    | none => ""

/-- The name of a type node under a binding of generic parameters. -/
def nameWith (p : Program) (s : Substitution) (id : TypeId) : String :=
  p.nameWithin s nameDepth id

/-- The full name of a type node. -/
def fullName (p : Program) (id : TypeId) : String := p.nameWith {} id

end Program

end Liveset
