import Liveset.Retention
import Liveset.Reach.Rule

/-!
# The state of a pass

A pass reaches entities one after the other and keeps several records of that: the set of reached
entities, their order, the type definitions and foreign classes among them, a count per kind and,
unless it was switched off, the retention graph. `State.reach` is the only place where they change,
and it changes all of them together.

Reaching an entity is followed by applying its rule, which may load foreign classes, note a type as
wrapped in the type whose instances may be absent, and leave diagnostics. When the rule fails, the
entity stays reached.

What this module delivers: `State`, `State.reach`, `State.visit`, `State.resolve?` for steps, and
`Outcome`.
-/

set_option autoImplicit false

namespace Liveset

/-- What a pass has found so far. -/
structure State where
  repository : Repository := {}
  reached : Std.TreeSet Entity := {}
  /-- The reached entities, oldest first. -/
  order : Array Entity := #[]
  /-- The type definitions among them. -/
  types : Array TypeId := #[]
  /-- The foreign classes among them. -/
  foreignClasses : Array ClassId := #[]
  /-- Types that occur wrapped in the type whose instances may be absent. -/
  nullable : Std.TreeSet TypeId := {}
  diagnostics : Array Diagnostic := #[]
  /-- How many roots were not reached before they were marked. -/
  roots : Nat := 0
  /-- How many rules were applied, by the kind of their entity. -/
  expansions : KindTally := {}
  /-- Who was reached from whom, if that is recorded. -/
  retention : Option Retention := some {}

namespace State

/-- Is the entity reached? -/
def isReached (s : State) (entity : Entity) : Bool := s.reached.contains entity

/-- The owner of an entity, unless it is reached. -/
def unreachedOwner? (s : State) (p : Program) (entity : Entity) : Option Entity :=
  (p.owner? entity).filter fun owner => !s.isReached owner

/-- The type definitions among the reached entities, with one entity more. -/
def listType (p : Program) (types : Array TypeId) : Entity → Array TypeId
  | .type id => if (p.typeDefinition? id).isSome then types.push id else types
  | _ => types

/-- The foreign classes among the reached entities, with one entity more. -/
def listClass (classes : Array ClassId) : Entity → Array ClassId
  | .foreignClass id => classes.push id
  | _ => classes

/-- Reach an entity from `source`: enter it into every record. -/
def reach (s : State) (p : Program) (source : Option Entity) (entity : Entity) : State :=
  { s with
    reached := s.reached.insert entity
    order := s.order.push entity
    types := listType p s.types entity
    foreignClasses := listClass s.foreignClasses entity
    expansions := s.expansions.bump entity.kind
    retention := s.retention.map (·.record source entity) }

/-- Note the type that an entity wraps, if it does. -/
def noteNullable (s : State) (p : Program) : Entity → State
  | .type id =>
    match p.nullableUse? id with
    | some wrapped => { s with nullable := s.nullable.insert wrapped }
    | none => s
  | _ => s

/-- Take over what applying a rule gave. -/
def absorb (s : State) (expansion : Expansion) : State :=
  { s with
    repository := expansion.repository
    diagnostics := s.diagnostics ++ expansion.diagnostics.toArray }

/-- Apply the rule of an entity. -/
def applyRule (s : State) (scene : Scene) (entity : Entity) :
    Except SupportError (List Step) × State :=
  match scene.expand s.repository entity with
  | .error error => (.error error, s)
  | .ok expansion => (.ok expansion.steps, (s.noteNullable scene.program entity).absorb expansion)

/-- Reach an entity and apply its rule. -/
def visit (s : State) (scene : Scene) (source : Option Entity) (entity : Entity) :
    Except SupportError (List Step) × State :=
  (s.reach scene.program source entity).applyRule scene entity

/-- The overridden method that a method asks for, if the type that declares it is reached. -/
def overriddenTarget? (s : State) (p : Program) (method : MethodId) : Option Entity := do
  let base ← p.overridden? method
  let declaring ← p.methodDeclaringType? base
  if s.isReached (.type declaring) then some (.method base) else none

/-- The entity that a step asks for in this state. -/
def resolve? (s : State) (p : Program) : Step → Option Entity
  | .mark target => some target
  | .markOverridden method => s.overriddenTarget? p method

end State

/-- How a marking ended, with the state it left. -/
structure Outcome where
  verdict : Except SupportError Unit
  state : State

namespace Outcome

/-- A marking that succeeded. -/
def done (s : State) : Outcome := ⟨.ok (), s⟩

/-- A marking that failed. -/
def failed (error : SupportError) (s : State) : Outcome := ⟨.error error, s⟩

end Outcome

end Liveset
