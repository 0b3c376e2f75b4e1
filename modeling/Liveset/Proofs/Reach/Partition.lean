import Liveset.Proofs.Reach.Explanation
import Liveset.Proofs.Retention.Forest

/-!
# The retention graph shares out the reached entities

A pass visits an entity once, from an entity that it has visited before or from nothing. So each
visit records a new node from an old one, and the graph of the pass is a forest on the reached
entities (`State.Forested`). Its roots and the lists of what each entity retains therefore have
every reached entity exactly once, and list them as they were reached (`State.SharesOut`).

Main statement: this holds after whatever calls of a session that records retention from the start,
failed calls included (`sharesOut_after`).
-/

set_option autoImplicit false

namespace Liveset

variable {scene : Scene} {s s' : State} {g : Retention} {e : Entity}

/-! ## The forest of a pass -/

/-- The state keeps the graph, which is a forest on the reached entities in their order. -/
structure State.Forested (s : State) (g : Retention) : Prop where
  retention : s.retention = some g
  nodes : g.nodes = s.order
  forest : g.Forest

/-- A visit from a reached entity, or from nothing, adds one node to the forest. -/
theorem State.Forested.visit {source : Option Entity} {verdict : Except SupportError (List Step)}
    (h : s.Forested g) (ordered : s.Ordered) (visited : s.visit scene source e = (verdict, s'))
    (new : ¬ s.isReached e) (known : ∀ origin, source = some origin → s.isReached origin) :
    s'.Forested (g.record source e) := by
  have isNode := ordered.mem_nodes_iff h.nodes
  have newNode : e ∉ g.nodes := by rwa [isNode]
  have knownNode : ∀ origin, source = some origin → origin ∈ g.nodes := by
    intro origin same
    exact (isNode origin).2 (known origin same)
  constructor
  case retention => rw [State.retention_visit visited, h.retention, Option.map_some]
  case nodes => rw [State.order_visit visited, ← h.nodes, Retention.nodes_record newNode knownNode]
  case forest => exact h.forest.record newNode knownNode

theorem keptByCausedVisits_forested (scene : Scene) (roots : Entity → Prop) :
    KeptByCausedVisits scene roots fun s => s.Ordered ∧ ∃ g, s.Forested g := by
  intro s s' source e verdict visited new free _ _ known ⟨ordered, g, forested⟩
  refine ⟨keptByVisits_ordered scene s s' source e verdict visited new free ordered, ?_⟩
  exact ⟨g.record source e, forested.visit ordered visited new known⟩

theorem Session.forested_after (scene : Scene) (strategy : Strategy) (loader : Loader)
    (calls : List Call) :
    let s := ((fresh scene strategy loader true).after calls).state
    s.Ordered ∧ ∃ g, s.Forested g := by
  refine ((fresh scene strategy loader true).preserves_caused calls
    (keptByCausedVisits_forested scene (Given scene calls)) (fun s kept => ?_)
    (Repository.consistent_fresh loader)
    ⟨ordered_fresh scene strategy loader true, {}, ⟨rfl, rfl, Retention.forest_empty⟩⟩).2
  obtain ⟨ordered, g, forested⟩ := kept
  exact ⟨ordered.countRoot, g, forested.retention, forested.nodes, forested.forest⟩

/-! ## Roots and children -/

/-- The graph has a node for each reached entity, at most one edge to each of them, and an edge to
every one that is not a root. Its roots and the lists of what each reached entity retains have every
reached entity once and nothing else. Each of these lists runs along the order, and what an entity
retains comes after it. -/
structure State.SharesOut (s : State) (g : Retention) : Prop where
  nodeCount : g.nodeCount = s.order.size
  incoming : ∀ e, (g.edges.toList.filter (·.target = e)).length ≤ 1
  edgeCount : g.edgeCount + g.roots.length = s.order.size
  once : ∀ e, (g.roots ++ s.order.toList.flatMap g.retainedBy).count e =
    if s.isReached e then 1 else 0
  roots : g.roots.Sublist s.order.toList
  retained : ∀ e, (g.retainedBy e).Sublist s.order.toList
  later : ∀ e, ∀ x ∈ g.retainedBy e, s.Precedes e x

theorem State.Forested.sharesOut (h : s.Forested g) (ordered : s.Ordered) : s.SharesOut g := by
  have nodes : g.nodes.toList = s.order.toList := by rw [h.nodes]
  constructor
  case nodeCount => rw [Retention.nodeCount, h.nodes]
  case incoming => exact h.forest.length_incoming_le_one
  case edgeCount =>
    have shared := h.forest.perm_roots_targets.length_eq
    rw [List.length_append, Retention.targets, List.length_map, Array.length_toList,
      Array.length_toList, h.nodes] at shared
    rw [Retention.edgeCount, Nat.add_comm]
    exact shared
  case once =>
    intro e
    have shared := h.forest.perm_roots_retainedBy
    rw [nodes] at shared
    -- The order has each reached entity once, and nothing else.
    rw [shared.count_eq, ordered.nodup.count]
    simp only [ordered.mem_iff]
  case roots =>
    rw [← nodes]
    exact List.filter_sublist
  case retained =>
    intro e
    rw [← nodes]
    exact (g.retainedBy_sublist e).trans h.forest.targets
  case later =>
    intro e x child
    apply State.precedes_of_sublist
    rw [← nodes]
    exact h.forest.forward _ (Retention.mem_retainedBy_iff.1 child)

/-- The retention graph is a forest that shares out the reached entities. After whatever calls of a
fresh session that records retention, failed ones included, the order lists the reached entities,
each of them once, and the roots of the graph and what each entity retains partition them. -/
theorem sharesOut_after (scene : Scene) (strategy : Strategy) (loader : Loader)
    (calls : List Call) :
    let s := ((Session.fresh scene strategy loader true).after calls).state
    s.Ordered ∧ ∃ g, s.retention = some g ∧ s.SharesOut g := by
  intro s
  obtain ⟨ordered, g, forested⟩ := Session.forested_after scene strategy loader calls
  exact ⟨ordered, g, forested.retention, forested.sharesOut ordered⟩

end Liveset
