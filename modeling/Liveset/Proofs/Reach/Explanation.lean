import Liveset.Proofs.Reach.Provenance
import Liveset.Proofs.Retention.Lineage
import Liveset.Report

/-!
# Explanations

A session that records retention keeps, beside the order of the reached entities, a graph with the
same entities as its nodes. The parent of an entity in the graph is the source from which it was
visited, so every reached entity has its cause there (`State.Recorded`). Parents come before their
children in the order, therefore the climb behind `Retention.explain?` comes to an entity without a
parent, and the chain that it leaves explains the entity it started from (`Explains`): it begins on
the way to a root, and each step of it is the doing of a rule.
-/

set_option autoImplicit false

namespace Liveset

variable {scene : Scene} {roots : Entity → Prop} {s s' : State} {g : Retention} {e : Entity}

/-! ## The graph of a pass -/

/-- The nodes of the graph are the reached entities in their order. The parent of each of them is
the cause of its visit, and comes before it. -/
structure State.Recorded (scene : Scene) (roots : Entity → Prop) (s : State)
    (g : Retention) : Prop where
  retention : s.retention = some g
  nodes : g.nodes = s.order
  cause : ∀ e, s.isReached e → Cause scene roots s.repository (g.parent? e) e
  parent : ∀ e origin, g.parent? e = some origin → s.Precedes origin e

theorem State.retention_visit {source : Option Entity} {verdict : Except SupportError (List Step)}
    (h : s.visit scene source e = (verdict, s')) :
    s'.retention = s.retention.map (·.record source e) := by
  obtain ⟨repository, nullable, diagnostics, rfl⟩ := exists_visit_eq h
  rfl

/-- If the nodes of the graph are those of the order, they are the reached entities. -/
theorem State.Ordered.mem_nodes_iff (ordered : s.Ordered) (nodes : g.nodes = s.order) (e : Entity) :
    e ∈ g.nodes ↔ s.isReached e := by
  rw [nodes, ← Array.mem_toList_iff, ordered.mem_iff]

/-- A child is in the order, as its parent comes before it. -/
theorem State.Recorded.isReached_child (h : s.Recorded scene roots g) (ordered : s.Ordered)
    {origin : Entity} (above : g.parent? e = some origin) : s.isReached e := by
  rw [← ordered.mem_iff]
  exact (ordered.precedes_iff.1 (h.parent e origin above)).1

/-- A visit with a cause adds the entity to the graph, below the source of the visit. -/
theorem State.Recorded.visit {source : Option Entity} {verdict : Except SupportError (List Step)}
    (h : s.Recorded scene roots g) (ordered : s.Ordered)
    (visited : s.visit scene source e = (verdict, s')) (new : ¬ s.isReached e)
    (consistent : s.repository.Consistent) (cause : Cause scene roots s.repository source e)
    (known : ∀ origin, source = some origin → s.isReached origin) :
    s'.Recorded scene roots (g.record source e) := by
  have grown := State.grows_visit visited
  have isNode := ordered.mem_nodes_iff h.nodes
  have orphan : g.parent? e = none := by
    rw [Option.eq_none_iff_forall_ne_some]
    exact fun origin above => new (h.isReached_child ordered above)
  -- The visited entity gets the source for its parent; nobody else gets a new one.
  have own : (g.record source e).parent? e = source := by
    rw [Retention.parent?_record, if_pos rfl, orphan, Option.or_none]
  have others {x : Entity} (different : x ≠ e) : (g.record source e).parent? x = g.parent? x := by
    rw [Retention.parent?_record, if_neg different]
  constructor
  case retention => rw [State.retention_visit visited, h.retention, Option.map_some]
  case nodes =>
    rw [State.order_visit visited, ← h.nodes]
    apply Retention.nodes_record
    · rwa [isNode]
    · exact fun origin same => (isNode origin).2 (known origin same)
  case cause =>
    intro x reached
    by_cases same : x = e
    · rw [same, own]
      exact cause.mono consistent grown.repository
    · rw [others same]
      have before := ((State.isReached_visit visited).1 reached).resolve_left same
      exact (h.cause x before).mono consistent grown.repository
  case parent =>
    intro x origin above
    by_cases same : x = e
    · rw [same, own] at above
      rw [same]
      exact ordered.precedes_visit visited (known origin above)
    · rw [others same] at above
      exact (h.parent x origin above).mono grown

/-- After whatever calls of a fresh session that records retention, its graph tells the causes. -/
theorem Session.recorded_after (scene : Scene) (strategy : Strategy) (loader : Loader)
    (calls : List Call) :
    let s := ((fresh scene strategy loader true).after calls).state
    s.Ordered ∧ ∃ g, s.Recorded scene (Given scene calls) g := by
  refine ((fresh scene strategy loader true).preserves_caused calls
    (P := fun s => s.Ordered ∧ ∃ g, s.Recorded scene (Given scene calls) g) ?_ (fun s kept => ?_)
    (Repository.consistent_fresh loader) ⟨ordered_fresh scene strategy loader true, {}, ?_⟩).2
  · intro s s' source e verdict visited new free consistent cause known ⟨ordered, g, recorded⟩
    refine ⟨keptByVisits_ordered scene s s' source e verdict visited new free ordered,
      g.record source e, ?_⟩
    exact recorded.visit ordered visited new consistent cause known
  · obtain ⟨ordered, g, recorded⟩ := kept
    exact ⟨ordered.countRoot, g, recorded.retention, recorded.nodes, recorded.cause,
      recorded.parent⟩
  · refine ⟨rfl, rfl, fun e reached => ?_, fun e origin above => ?_⟩
    · simp [fresh, State.isReached] at reached
    · cases above

/-! ## Chains -/

/-- The chain explains the entity. It ends with the entity and runs along the order. It begins with
a root of the graph that is on the way to one of the roots of the pass; and each entity of it is
followed by one on the way to something that its rule asks for. -/
structure Explains (scene : Scene) (roots : Entity → Prop) (s : State) (g : Retention) (e : Entity)
    (chain : List Entity) : Prop where
  last : chain.getLast? = some e
  increasing : chain.Pairwise s.Precedes
  first : ∃ first, chain.head? = some first ∧ first ∈ g.roots ∧
    ∃ root, roots root ∧ scene.program.OnTheWay root first
  linked : chain.IsChain fun parent child => ∃ target,
    scene.AsksFor s.repository parent target ∧ scene.program.OnTheWay target child

namespace State.Recorded

theorem isSome_explain? (h : s.Recorded scene roots g) (ordered : s.Ordered) (e : Entity) :
    (g.explain? e).isSome = s.isReached e := by
  rw [Bool.eq_iff_iff, ← ordered.mem_nodes_iff h.nodes, Retention.explain?]
  split <;> simp_all

theorem explains (h : s.Recorded scene roots g) (ordered : s.Ordered) {chain : List Entity}
    (explained : g.explain? e = some chain) : Explains scene roots s g e chain := by
  have reached : s.isReached e := by
    rw [← h.isSome_explain? ordered, explained]
    rfl
  rw [Retention.explain?, Option.ite_none_right_eq_some] at explained
  obtain ⟨-, climbed⟩ := explained
  cases climbed
  have descends : g.Descends (g.climb g.nodes.size e []) :=
    Retention.descends_climb (List.isChain_singleton e)
  constructor
  case last =>
    rw [← List.singleton_suffix_iff_getLast?_eq_some]
    exact g.suffix_climb g.nodes.size e []
  case increasing =>
    have transitive : Trans s.Precedes s.Precedes s.Precedes := ⟨ordered.precedes_trans⟩
    exact (descends.imp fun parent child above => h.parent child parent above).pairwise
  case first =>
    -- Parents stand earlier in the order, so there is fuel enough to come to the top.
    have enough : s.order.toList.idxOf e ≤ g.nodes.size := by
      rw [h.nodes]
      exact List.idxOf_le_length
    obtain ⟨first, head, top, known⟩ := Retention.exists_head_climb
      (P := fun x => s.isReached x) s.order.toList.idxOf
      (fun child parent above => (ordered.precedes_iff.1 (h.parent child parent above)).2)
      (fun child parent above _ => ordered.isReached_of_precedes (h.parent child parent above))
      [] enough reached
    have cause := h.cause first known
    rw [top] at cause
    refine ⟨first, head, ?_, cause⟩
    rw [Retention.roots, List.mem_filter, h.nodes, ordered.mem_iff, top]
    exact ⟨known, rfl⟩
  case linked =>
    refine descends.imp fun parent child above => ?_
    have cause := h.cause child (h.isReached_child ordered above)
    rw [above] at cause
    exact cause

end State.Recorded

/-- Explanations are sound and complete. After whatever calls of a fresh session that records
retention, failed ones included, there is an explanation for exactly the reached entities, and each
of them explains its entity. -/
theorem explained_after (scene : Scene) (strategy : Strategy) (loader : Loader)
    (calls : List Call) :
    let session := (Session.fresh scene strategy loader true).after calls
    ∃ g, session.state.retention = some g ∧
      (∀ e, (g.explain? e).isSome = session.isReached e) ∧
      (∀ e, (Explanation.ofReachable scene.program session.finish e).isReachable =
        session.finish.contains e) ∧
      ∀ e chain, g.explain? e = some chain →
        Explains scene (Given scene calls) session.state g e chain := by
  intro session
  obtain ⟨ordered, g, recorded⟩ := Session.recorded_after scene strategy loader calls
  have complete (e : Entity) : (g.explain? e).isSome = session.isReached e :=
    recorded.isSome_explain? ordered e
  refine ⟨g, recorded.retention, complete, fun e => ?_, fun e chain => recorded.explains ordered⟩
  have result : session.finish.explain? e = g.explain? e := by
    rw [Reachable.explain?, Session.finish, recorded.retention]
    rfl
  have contained : session.finish.contains e = (g.explain? e).isSome := (complete e).symm
  rw [contained, Explanation.isReachable, Explanation.ofReachable, result]
  cases explained : g.explain? e with
  | none => rfl
  | some chain =>
    -- A chain that ends with something is not empty.
    have last := (recorded.explains ordered explained).last
    cases chain with
    | nil => cases last
    | cons first rest => rfl

end Liveset
