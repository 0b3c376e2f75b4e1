import Liveset.Reach.Policy
import Liveset.Reach.Recursive
import Liveset.Reach.Worklist

/-!
# Sessions

A session is a pass in the making: fixed surroundings, a strategy, and the state. It is driven by
marking entities, lists of roots and the attributes of the program; after a failure it goes on with
the state that the failure left. Its repository has a `Loader`, so it knows finitely many foreign
classes, and every marking ends. Where a question of a rule does not return, a marking goes on
without an answer; `Liveset.Reach.Returning` tells these markings from those that return.

What this module delivers: `Strategy`, `Session`, `fresh` sessions, the markings `mark`, `markRoots`
and `walkProgramAttributes`, and `finish`, which closes the books and gives a `Reachable`.
-/

set_option autoImplicit false

namespace Liveset

/-- How pending work is held. Both ways visit in the same order. -/
inductive Strategy where
  /-- In a list of tasks. -/
  | worklist
  /-- In nested calls. -/
  | recursive
deriving DecidableEq, Inhabited, Repr

/-- Mark an entity and everything it needs. Marking ends in every state, so the state is never
handed back for want of an outcome. -/
def Strategy.mark (strategy : Strategy) (scene : Scene) (s : State) (entity : Entity) : Outcome :=
  let outcome? :=
    match strategy with
    | .worklist => Worklist.mark? scene s entity
    | .recursive => Recursive.mark? scene s entity
  outcome?.getD (.done s)

/-- A pass in the making. -/
structure Session where
  scene : Scene
  strategy : Strategy := .worklist
  state : State := {}

/-- The result of a pass. -/
structure Reachable where
  /-- The reached type definitions, oldest first. -/
  types : List TypeId
  /-- All reached entities, oldest first. -/
  order : List Entity
  /-- The reached foreign classes with their names, oldest first. -/
  foreignClasses : List (ClassId × String)
  /-- Types that occur wrapped in the type whose instances may be absent, by handle. -/
  nullable : List TypeId
  diagnostics : List Diagnostic
  roots : Nat
  expansions : KindTally
  /-- How many foreign classes were loaded. -/
  classesLoaded : Nat
  retention : Option Retention
  reached : Std.TreeSet Entity

namespace Session

/-- A session that has not marked or loaded anything. -/
def fresh (scene : Scene) (strategy : Strategy) (loader : Loader) (recordRetention : Bool) :
    Session where
  scene := scene
  strategy := strategy
  state := { repository := .fresh loader, retention := if recordRetention then some {} else none }

/-- A fresh session that keeps the visible members, knows no foreign classes and records
retention. -/
def ofProgram (p : Program) : Session where
  scene := { program := p, includes := Policy.visible.includes p }

/-- Is the entity reached? -/
def isReached (session : Session) (entity : Entity) : Bool := session.state.isReached entity

/-- Take over the state of an outcome. -/
def resume (session : Session) (outcome : Outcome) : Except SupportError Unit × Session :=
  (outcome.verdict, { session with state := outcome.state })

/-- Mark an entity and everything it needs. -/
def mark (session : Session) (entity : Entity) : Except SupportError Unit × Session :=
  session.resume (session.strategy.mark session.scene session.state entity)

/-- Mark an entity, if there is one. -/
def markOption (session : Session) (entity : Option Entity) : Except SupportError Unit × Session :=
  match entity with
  | none => (.ok (), session)
  | some entity => session.mark entity

/-- Count a root that is not reached yet. -/
def countRoot (session : Session) (root : Entity) : Session :=
  if session.isReached root then session
  else { session with state := { session.state with roots := session.state.roots + 1 } }

/-- Mark entities one after the other up to the first failure, each after `prepare` has seen it. -/
def markEach (prepare : Session → Entity → Session) (session : Session) :
    List Entity → Except SupportError Unit × Session
  | [] => (.ok (), session)
  | entity :: rest =>
    match (prepare session entity).mark entity with
    | (.error error, session) => (.error error, session)
    | (.ok (), session) => session.markEach prepare rest

/-- Mark roots one after the other up to the first failure, counting those that are new. -/
def markRoots (session : Session) (roots : List Entity) : Except SupportError Unit × Session :=
  session.markEach countRoot roots

/-- The attributes of the program that reach the output. -/
def programAttributes (session : Session) : List Entity :=
  let p := session.scene.program
  (p.programAttributes.filter fun id => !p.isCompilerOnly id).map .attribute

/-- Mark the attributes of the program. -/
def walkProgramAttributes (session : Session) : Except SupportError Unit × Session :=
  session.markEach (fun session _ => session) session.programAttributes

/-- Load a foreign class outside of any marking. -/
def tryLoad (session : Session) (name : String) : Option ClassId × Session :=
  let (id, repository) := session.state.repository.tryLoad name
  (id, { session with state := { session.state with repository } })

/-- The name of a loaded class; a class that is not loaded has the empty name. -/
def className (session : Session) (id : ClassId) : String :=
  ((session.state.repository.class? id).map (·.name)).getD ""

/-- End the pass. -/
def finish (session : Session) : Reachable :=
  let s := session.state
  { types := s.types.toList
    order := s.order.toList
    foreignClasses := s.foreignClasses.toList.map fun id => (id, session.className id)
    nullable := s.nullable.toList
    diagnostics := s.diagnostics.toList
    roots := s.roots
    expansions := s.expansions
    classesLoaded := s.repository.size
    retention := s.retention
    reached := s.reached }

end Session

namespace Reachable

/-- Is the entity reached? -/
def contains (result : Reachable) (entity : Entity) : Bool := result.reached.contains entity

/-- How many entities are reached. -/
def size (result : Reachable) : Nat := result.reached.size

/-- The chain from a root to an entity, if retention was recorded and the entity is in it. -/
def explain? (result : Reachable) (entity : Entity) : Option (List Entity) :=
  result.retention.bind fun g => g.explain? entity

end Reachable

end Liveset
