import Liveset.Entity

/-!
# The retention graph

Who was first reached from whom. Every record adds the entity as a node and, when it was reached
from another one, an edge from that one. Nodes and edges keep the order in which they were recorded;
repeated edges and loops are kept too. Recording twice for one entity gives it two incoming edges,
and then the newest one tells where it came from.

What this module delivers: `Retention`, `record`, `explain?`, `roots` and `retainedBy`.
-/

set_option autoImplicit false

namespace Liveset

/-- An edge of the graph: `target` was reached from `source`. -/
structure RetentionEdge where
  source : Entity
  target : Entity
deriving DecidableEq, Inhabited, Repr

/-- Entities and edges in the order of recording. -/
structure Retention where
  nodes : Array Entity := #[]
  edges : Array RetentionEdge := #[]
deriving DecidableEq, Inhabited, Repr

namespace Retention

/-- Add a node, once. -/
def addNode (g : Retention) (entity : Entity) : Retention :=
  if entity ∈ g.nodes then g else { g with nodes := g.nodes.push entity }

/-- Record that `entity` was reached from `source`, or from nothing. -/
def record (g : Retention) (source : Option Entity) (entity : Entity) : Retention :=
  let g := g.addNode entity
  match source with
  | none => g
  | some source =>
    let g := g.addNode source
    { g with edges := g.edges.push ⟨source, entity⟩ }

/-- Where an entity came from, by the newest edge that leads to it. -/
def parent? (g : Retention) (entity : Entity) : Option Entity :=
  (g.edges.toList.reverse.find? (·.target = entity)).map (·.source)

/-- Follow edges backwards from `entity`, at most `fuel` of them. `chain` is what follows
`entity`. -/
def climb (g : Retention) : Nat → Entity → List Entity → List Entity
  | 0, entity, chain => entity :: chain
  | fuel + 1, entity, chain =>
    match g.parent? entity with
    | none => entity :: chain
    | some parent => g.climb fuel parent (entity :: chain)

/-- The chain from a root down to an entity, if the entity is a node. In a graph with a loop the
chain stops when it is longer than the number of nodes. -/
def explain? (g : Retention) (entity : Entity) : Option (List Entity) :=
  if entity ∈ g.nodes then some (g.climb g.nodes.size entity []) else none

/-- The nodes that no edge leads to. -/
def roots (g : Retention) : List Entity :=
  g.nodes.toList.filter fun entity => (g.parent? entity).isNone

/-- The entities that were reached from an entity, oldest first. -/
def retainedBy (g : Retention) (entity : Entity) : List Entity :=
  (g.edges.toList.filter (·.source = entity)).map (·.target)

/-- How many nodes there are. -/
def nodeCount (g : Retention) : Nat := g.nodes.size

/-- How many edges there are. -/
def edgeCount (g : Retention) : Nat := g.edges.size

end Retention

end Liveset
