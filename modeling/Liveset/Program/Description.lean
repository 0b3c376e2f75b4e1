import Liveset.Program.Resolution

/-!
# Owners, qualified names and descriptions

The owner of an entity is what must be kept whenever the entity is: the declaring type of a member,
the method or property of a parameter, the declarer of a generic parameter, the class of a foreign
member. An owner has an owner of its own at most once more, since types and classes have none.

A qualified name is `Namespace.Type` or `Namespace.Type::member`; it is split at the first `::`.

Names and owners of methods are found by following chains of instances. Where such a chain does not
end (`Program.isEndless`), the question does not return: `ownerReturns` says whether that for an
owner does, and `lookup` and `describe` are undefined where they do not.

What this module delivers: `owner?`, `lookup` and `describe`.
-/

set_option autoImplicit false

namespace Liveset.Program

/-! ## Owners -/

/-- What must be kept whenever the entity is. -/
def owner? (p : Program) : Entity → Option Entity
  | .method id =>
    match p.method? id with
    | some (.definition d) => some (.type d.declaringType)
    | some (.reference r) => some (.type r.declaringType)
    | some (.instance element _) => (p.methodDeclaringType? element).map .type
    | none => none
  | .field id =>
    match p.field? id with
    | some (.definition d) => some (.type d.declaringType)
    | some (.reference r) => some (.type r.declaringType)
    | none => none
  | .property id => (p.property? id).map fun d => .type d.declaringType
  | .event id => (p.event? id).map fun d => .type d.declaringType
  | .parameter id =>
    (p.parameter? id).map fun d =>
      match d.owner with
      | .method m => .method m
      | .property q => .property q
  | .genericParameter id =>
    (p.genericParameter? id).map fun d =>
      match d.owner with
      | .type t => .type t
      | .method m => .method m
  | .foreignField owner _ => some (.foreignClass owner)
  | .foreignMethod owner _ => some (.foreignClass owner)
  | .type _ | .attribute _ | .foreignClass _ => none

/-- Does the question for the owner of an entity return? -/
def ownerReturns (p : Program) : Entity → Bool
  | .method id => !p.isEndless id
  | _ => true

/-! ## Qualified names -/

/-- The texts before and after the first `::`. -/
def splitQualified? : List Char → Option (List Char × List Char)
  | ':' :: ':' :: rest => some ([], rest)
  | c :: rest => (splitQualified? rest).map fun (before, after) => (c :: before, after)
  | [] => none

/-- The members of a definition that are called `name`: methods, fields, properties, events. -/
def membersNamed (p : Program) (d : TypeDefinition) (name : String) : List Entity :=
  (d.methods.filter fun id => p.methodName? id = some name).map .method ++
  (d.fields.filter fun id => (p.fieldDefinition? id).any (·.name = name)).map .field ++
  (d.properties.filter fun id => (p.property? id).any (·.name = name)).map .property ++
  (d.events.filter fun id => (p.event? id).any (·.name = name)).map .event

/-- The entities with a qualified name. A member name selects every overload and every kind. All the
methods of the type are asked for their names, whatever the member is. -/
def lookup (p : Program) (qualified : String) : Option (List Entity) :=
  match splitQualified? qualified.toList with
  | none => some ((p.findType? qualified).map Entity.type).toList
  | some (typeName, member) =>
    match (p.findType? (String.ofList typeName)).bind p.typeDefinition? with
    | none => some []
    | some d =>
      if d.methods.any p.isEndless then none else some (p.membersNamed d (String.ofList member))

/-! ## Descriptions -/

/-- The name of a member with its type in front. -/
def qualifiedName (p : Program) (declaringType : TypeId) (name : String) : String :=
  p.fullName declaringType ++ "::" ++ name

/-- A method with its type and its parameter types. -/
def methodCaption (p : Program) (id : MethodId) : String :=
  let owner := ((p.methodDeclaringType? id).map p.fullName).getD ""
  let name := (p.methodName? id).getD "?"
  let parameters := ((p.methodSignature? id).map (·.parameterTypes.map p.fullName)).getD []
  owner ++ "::" ++ name ++ "(" ++ String.intercalate "," parameters ++ ")"

/-- The name of an entity for a reader. Foreign entities, and handles outside their arena, are named
by their label. -/
def caption (p : Program) (entity : Entity) : String :=
  match entity with
  | .type id => p.fullName id
  | .method id => p.methodCaption id
  | .field id =>
    match p.field? id with
    | some (.definition d) => p.qualifiedName d.declaringType d.name
    | some (.reference r) => p.qualifiedName r.declaringType r.name
    | none => entity.label
  | .property id =>
    match p.property? id with
    | some d => p.qualifiedName d.declaringType d.name
    | none => entity.label
  | .event id =>
    match p.event? id with
    | some d => p.qualifiedName d.declaringType d.name
    | none => entity.label
  | .parameter id =>
    match p.parameter? id with
    | some d => "param " ++ d.name ++ ": " ++ p.fullName d.parameterType
    | none => entity.label
  | .genericParameter id =>
    match p.genericParameter? id with
    | some d => "generic " ++ d.name
    | none => entity.label
  | .attribute id =>
    match p.attribute? id with
    | some a => "[" ++ ((p.methodDeclaringType? a.constructor).map p.fullName).getD "" ++ "]"
    | none => entity.label
  | .foreignClass _ | .foreignField _ _ | .foreignMethod _ _ => entity.label

/-- Does the question for the name of an entity return? -/
def captionReturns (p : Program) : Entity → Bool
  | .method id => !p.isEndless id
  | .attribute id => (p.attribute? id).all fun a => !p.isEndless a.constructor
  | _ => true

/-- Name an entity for a reader. -/
def describe (p : Program) (entity : Entity) : Option String :=
  if p.captionReturns entity then some (p.caption entity) else none

end Liveset.Program
