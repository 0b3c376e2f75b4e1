import Liveset.Proofs.Retention.Lineage
import Mathlib.Data.List.Nodup
import Mathlib.Data.List.Perm.Basic

/-!
# Retention graphs that are forests

A graph to which entities are recorded once each, and only from sources that it has already, is a
forest: at most one edge leads to a node, it comes from an earlier node, and the edges stand in the
order of the nodes they lead to (`Forest.record`). In a forest the edges are the pairs of parent and
child (`Forest.parent?_eq_some_iff`). The entities that a node retains are its children, and the
roots are the nodes without a parent. As a node has one parent or none, the roots and the lists of
children share out the nodes among themselves (`Forest.perm_roots_retainedBy`).
-/

set_option autoImplicit false

namespace Liveset.Retention

variable {g : Retention} {source : Option Entity} {e x : Entity}

/-- The entities that edges lead to, in the order of recording. -/
def targets (g : Retention) : List Entity := g.edges.toList.map (·.target)

/-- Edges lead from earlier nodes to later ones, in the order of the nodes they lead to, and to each
node at most one. -/
structure Forest (g : Retention) : Prop where
  nodup : g.nodes.toList.Nodup
  targets : g.targets.Sublist g.nodes.toList
  forward : ∀ edge ∈ g.edges.toList, [edge.source, edge.target].Sublist g.nodes.toList

/-! ## Recording -/

theorem edges_record (g : Retention) (source : Option Entity) (e : Entity) :
    (g.record source e).edges.toList =
      g.edges.toList ++ (source.map fun origin => ⟨origin, e⟩).toList := by
  cases source <;> simp [record, edges_addNode]

theorem forest_empty : ({} : Retention).Forest where
  nodup := List.nodup_nil
  targets := List.Sublist.slnil
  forward := by simp

/-- A new entity that is recorded from a node, or from nothing, leaves a forest a forest. -/
theorem Forest.record (h : g.Forest) (new : e ∉ g.nodes)
    (known : ∀ origin, source = some origin → origin ∈ g.nodes) : (g.record source e).Forest := by
  have nodes : (g.record source e).nodes.toList = g.nodes.toList ++ [e] := by
    rw [nodes_record new known, Array.toList_push]
  constructor
  case nodup =>
    rw [nodes]
    apply h.nodup.append (List.nodup_singleton e)
    rw [List.disjoint_singleton, Array.mem_toList_iff]
    exact new
  case targets =>
    rw [nodes, Retention.targets, edges_record, List.map_append]
    apply h.targets.append
    -- The new edge, if there is one, leads to the new node.
    cases source with
    | none => exact List.nil_sublist _
    | some origin => exact List.Sublist.refl _
  case forward =>
    intro edge listed
    rw [edges_record, List.mem_append] at listed
    rw [nodes]
    rcases listed with old | added
    · exact (h.forward edge old).trans (List.sublist_append_left _ _)
    · cases source with
      | none => cases added
      | some origin =>
        cases List.mem_singleton.1 added
        have earlier : [origin].Sublist g.nodes.toList :=
          List.singleton_sublist.2 (Array.mem_toList_iff.2 (known origin rfl))
        exact earlier.append (List.Sublist.refl [e])

/-! ## Parents and children -/

theorem parent?_eq_none_iff : g.parent? x = none ↔ x ∉ g.targets := by
  simp [parent?, targets]

theorem mem_roots_iff : x ∈ g.roots ↔ x ∈ g.nodes.toList ∧ g.parent? x = none := by
  simp [roots]

/-- What an entity retains are the targets of its edges. -/
theorem mem_retainedBy_iff : x ∈ g.retainedBy e ↔ ⟨e, x⟩ ∈ g.edges.toList := by
  simp only [retainedBy, List.mem_map, List.mem_filter, decide_eq_true_eq]
  constructor
  · rintro ⟨⟨origin, target⟩, ⟨listed, rfl⟩, rfl⟩
    exact listed
  · intro listed
    exact ⟨_, ⟨listed, rfl⟩, rfl⟩

theorem retainedBy_sublist (g : Retention) (e : Entity) : (g.retainedBy e).Sublist g.targets :=
  List.filter_sublist.map _

namespace Forest

theorem nodup_targets (h : g.Forest) : g.targets.Nodup := h.targets.nodup h.nodup

/-- The edges are the pairs of parent and child. -/
theorem parent?_eq_some_iff (h : g.Forest) : g.parent? x = some e ↔ ⟨e, x⟩ ∈ g.edges.toList := by
  constructor
  · intro above
    obtain ⟨⟨origin, target⟩, found, rfl⟩ := Option.map_eq_some_iff.1 above
    have leads : target = x := by simpa using List.find?_some found
    subst leads
    exact List.mem_reverse.1 (List.mem_of_find?_eq_some found)
  · intro listed
    -- Some edge to the child is found, and there is no other than this one.
    cases above : g.parent? x with
    | none => exact absurd (List.mem_map_of_mem listed) (parent?_eq_none_iff.1 above)
    | some origin =>
      obtain ⟨edge, found, rfl⟩ := Option.map_eq_some_iff.1 above
      have leads : edge.target = x := by simpa using List.find?_some found
      have member := List.mem_reverse.1 (List.mem_of_find?_eq_some found)
      have same : edge = ⟨e, x⟩ := List.inj_on_of_nodup_map h.nodup_targets member listed leads
      rw [same]

/-- At most one edge leads to an entity. -/
theorem length_incoming_le_one (h : g.Forest) (e : Entity) :
    (g.edges.toList.filter (·.target = e)).length ≤ 1 := by
  have once := List.nodup_iff_count_le_one.1 h.nodup_targets e
  rw [List.count, Retention.targets, List.countP_map] at once
  rw [← List.countP_eq_length_filter]
  exact once

/-! ## Sharing out the nodes -/

/-- Every node is a root or the target of one edge. -/
theorem perm_roots_targets (h : g.Forest) : (g.roots ++ g.targets).Perm g.nodes.toList := by
  have apart : g.roots.Disjoint g.targets := by
    intro x root target
    exact parent?_eq_none_iff.1 (mem_roots_iff.1 root).2 target
  have nodup : (g.roots ++ g.targets).Nodup := (h.nodup.filter _).append h.nodup_targets apart
  rw [List.perm_ext_iff_of_nodup nodup h.nodup]
  intro x
  rw [List.mem_append, mem_roots_iff, parent?_eq_none_iff]
  constructor
  · rintro (⟨node, -⟩ | target)
    · exact node
    · exact h.targets.subset target
  · intro node
    by_cases target : x ∈ g.targets
    · exact .inr target
    · exact .inl ⟨node, target⟩

/-- The children of all nodes are the targets of the edges. -/
theorem perm_retainedBy_targets (h : g.Forest) :
    (g.nodes.toList.flatMap g.retainedBy).Perm g.targets := by
  have nodup : (g.nodes.toList.flatMap g.retainedBy).Nodup := by
    rw [List.nodup_flatMap]
    refine ⟨fun e _ => (g.retainedBy_sublist e).nodup h.nodup_targets, ?_⟩
    apply h.nodup.imp
    intro e e' different x child child'
    -- A child of both has both for its parent.
    rw [mem_retainedBy_iff, ← h.parent?_eq_some_iff] at child child'
    exact different (Option.some.inj (child.symm.trans child'))
  rw [List.perm_ext_iff_of_nodup nodup h.nodup_targets]
  intro x
  rw [List.mem_flatMap]
  constructor
  · rintro ⟨e, -, child⟩
    exact (g.retainedBy_sublist e).subset child
  · intro target
    obtain ⟨edge, listed, rfl⟩ := List.mem_map.1 target
    refine ⟨edge.source, (h.forward edge listed).subset List.mem_cons_self, ?_⟩
    exact mem_retainedBy_iff.2 listed

/-- The roots and the lists of children have every node once. -/
theorem perm_roots_retainedBy (h : g.Forest) :
    (g.roots ++ g.nodes.toList.flatMap g.retainedBy).Perm g.nodes.toList :=
  (h.perm_retainedBy_targets.append_left g.roots).trans h.perm_roots_targets

end Forest

end Liveset.Retention
