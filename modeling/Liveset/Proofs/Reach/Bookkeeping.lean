import Liveset.Proofs.Reach.Calls
import Liveset.Proofs.Reach.Order

/-!
# The books of a pass

A pass keeps its reached entities in five records: the set, the order, the type definitions, the
foreign classes and the counts by kind. Each visit enters one new entity into all of them, so in
every state they tell the same story (`State.Balanced`). The order tells more: an entity is visited
only once its owner is reached, so every owner stands before what it owns (`State.OwnersFirst`).

Both are kept by visits, and therefore hold in every state that a session comes to, in the middle of
a marking and after a failure as well. What a call reaches it adds at the end of the order, and
marking an entity again right after it was marked changes nothing.
-/

set_option autoImplicit false

namespace Liveset

/-! ## Counters -/

namespace KindTally

variable (tally : KindTally) (kind kind' : EntityKind)

theorem lookup_bumpEntries (counts : List (EntityKind × Nat)) :
    ((bumpEntries kind counts).lookup kind').getD 0 =
      (counts.lookup kind').getD 0 + if kind = kind' then 1 else 0 := by
  induction counts with
  | nil =>
    by_cases same : kind = kind'
    · simp [bumpEntries, same]
    · simp [bumpEntries, List.lookup_cons, beq_eq_false_iff_ne.2 (Ne.symm same), same]
  | cons entry rest ih =>
    obtain ⟨k, n⟩ := entry
    by_cases here : kind = k
    · -- The first entry is the one that counts up; the look-up finds it or passes it by.
      subst here
      by_cases same : kind = kind'
      · subst same
        simp [bumpEntries]
      · simp [bumpEntries, List.lookup_cons, beq_eq_false_iff_ne.2 (Ne.symm same), same]
    · by_cases found : kind' = k
      · subst found
        simp [bumpEntries, here]
      · simp [bumpEntries, here, List.lookup_cons, beq_eq_false_iff_ne.2 found, ih]

theorem get_bump : (tally.bump kind).get kind' = tally.get kind' + if kind = kind' then 1 else 0 :=
  lookup_bumpEntries kind kind' tally.counts

theorem foldl_bumpEntries (counts : List (EntityKind × Nat)) (start : Nat) :
    (bumpEntries kind counts).foldl (fun total entry => total + entry.2) start =
      counts.foldl (fun total entry => total + entry.2) start + 1 := by
  induction counts generalizing start with
  | nil => rfl
  | cons entry rest ih =>
    obtain ⟨k, n⟩ := entry
    by_cases here : kind = k
    · -- The rest is added up from a start that is greater by one.
      simp only [bumpEntries, here, if_true, List.foldl_cons, ← Nat.add_assoc]
      exact List.foldl_hom (· + 1) fun total entry => Nat.add_right_comm total 1 entry.2
    · simp only [bumpEntries, here, if_false, List.foldl_cons, ih]

theorem total_bump : (tally.bump kind).total = tally.total + 1 :=
  foldl_bumpEntries kind tally.counts 0

end KindTally

/-! ## Records -/

/-- Is the entity a type definition? -/
def Program.isTypeDefinition (p : Program) : Entity → Bool
  | .type id => (p.typeDefinition? id).isSome
  | _ => false

namespace State

/-- The records of a pass agree. The order lists the reached entities, each of them once; the lists
of type definitions and of foreign classes are what remains of the order when everything else is
left out; and the counts count the entities in the order, by kind and altogether. -/
structure Balanced (p : Program) (s : State) : Prop extends s.Ordered where
  types : s.types.toList.map .type = s.order.toList.filter p.isTypeDefinition
  foreignClasses : s.foreignClasses.toList.map .foreignClass =
    s.order.toList.filter (·.kind = .foreignClass)
  expansions : ∀ kind, s.expansions.get kind = s.order.toList.countP (·.kind = kind)
  total : s.expansions.total = s.order.size
  size : s.reached.size = s.order.size

/-- Every owner stands in the order before what it owns. -/
def OwnersFirst (p : Program) (s : State) : Prop :=
  ∀ (position : Nat) (e owner : Entity), s.order[position]? = some e → p.owner? e = some owner →
    ∃ earlier < position, s.order[earlier]? = some owner

theorem map_listType (p : Program) (types : Array TypeId) (e : Entity) :
    (listType p types e).toList.map .type =
      types.toList.map .type ++ [e].filter p.isTypeDefinition := by
  cases e with
  | type id =>
    by_cases defined : (p.typeDefinition? id).isSome <;>
      simp [listType, Program.isTypeDefinition, defined]
  | _ => simp [listType, Program.isTypeDefinition]

theorem map_listClass (classes : Array ClassId) (e : Entity) :
    (listClass classes e).toList.map .foreignClass =
      classes.toList.map .foreignClass ++ [e].filter (·.kind = .foreignClass) := by
  cases e <;> simp [listClass, Entity.kind]

/-- The list of type definitions holds the reached ones. -/
theorem Balanced.mem_types_iff {p : Program} {s : State} (h : s.Balanced p) (id : TypeId) :
    id ∈ s.types ↔ s.isReached (.type id) ∧ (p.typeDefinition? id).isSome := by
  have listed : id ∈ s.types ↔ Entity.type id ∈ s.types.toList.map Entity.type := by simp
  rw [listed, h.types, List.mem_filter, h.mem_iff]
  rfl

end State

/-- A visit of a new entity enters it into all records. -/
theorem keptByVisits_balanced (scene : Scene) :
    KeptByVisits scene (State.Balanced scene.program) := by
  intro s s' source e verdict visited new free balanced
  have ordered := keptByVisits_ordered scene s s' source e verdict visited new free
    balanced.toOrdered
  obtain ⟨repository, nullable, diagnostics, rfl⟩ := State.exists_visit_eq visited
  have order : (s.order.push e).toList = s.order.toList ++ [e] := Array.toList_push
  constructor
  case toOrdered => exact ordered
  case types =>
    simp only [State.reach, State.map_listType, order, List.filter_append, balanced.types]
  case foreignClasses =>
    simp only [State.reach, State.map_listClass, order, List.filter_append, balanced.foreignClasses]
  case expansions =>
    intro kind
    simp only [State.reach, KindTally.get_bump, order, List.countP_append, balanced.expansions,
      List.countP_singleton, decide_eq_true_eq]
  case total =>
    simp only [State.reach, KindTally.total_bump, Array.size_push, balanced.total]
  case size =>
    simp only [State.isReached] at new
    simp only [State.reach, Std.TreeSet.size_insert, if_neg new, Array.size_push, balanced.size]

/-- A visit puts the entity behind its owner, which is in the order by then. -/
theorem keptByVisits_ownersFirst (scene : Scene) :
    KeptByVisits scene fun s => s.Ordered ∧ s.OwnersFirst scene.program := by
  intro s s' source e verdict visited new free ⟨ordered, first⟩
  refine ⟨keptByVisits_ordered scene s s' source e verdict visited new free ordered, ?_⟩
  intro position x owner listed owns
  rw [State.order_visit visited] at listed ⊢
  rw [Array.getElem?_push] at listed
  have kept {i : Nat} (old : s.order[i]? = some owner) : (s.order.push e)[i]? = some owner := by
    obtain ⟨inside, -⟩ := Array.getElem?_eq_some_iff.1 old
    rw [Array.getElem?_push, if_neg (Nat.ne_of_lt inside), old]
  split at listed
  · rename_i last
    cases listed
    obtain ⟨i, inside, found⟩ :=
      List.mem_iff_getElem.1 ((ordered.mem_iff owner).2 (free owner owns))
    refine ⟨i, ?_, kept ?_⟩
    · rw [last]
      exact inside
    · rw [Array.getElem?_eq_some_iff]
      exact ⟨inside, found⟩
  · obtain ⟨i, before, found⟩ := first position x owner listed owns
    exact ⟨i, before, kept found⟩

/-! ## Marking again -/

/-- A marking that succeeds reaches its entity. -/
theorem Strategy.isReached_of_ok (strategy : Strategy) {scene : Scene} {s : State} {e : Entity}
    (ok : (strategy.mark scene s e).verdict = .ok ()) :
    (strategy.mark scene s e).state.isReached e := by
  obtain ⟨last, moves, stop⟩ := strategy.exists_moves scene s e
  have due : Worklist.Due e (Worklist.start s e) := Worklist.due_of_top rfl
  exact (due.moves moves).reached_of_done stop ok

/-- Marking a reached entity does nothing. -/
theorem Strategy.mark_of_isReached (strategy : Strategy) {scene : Scene} {s : State} {e : Entity}
    (reached : s.isReached e) : strategy.mark scene s e = .done s := by
  have ended : Worklist.mark? scene s e = some (.done s) :=
    Worklist.run_eq_some_iff.2 ⟨⟨s, []⟩, .single (.reached reached), .done⟩
  exact Option.some.inj ((strategy.mark?_eq scene s e).symm.trans ended)

namespace Session

/-- Marking an entity again right after it was marked changes nothing. -/
theorem mark_again {session : Session} {e : Entity} (ok : (session.mark e).1 = .ok ()) :
    (session.mark e).2.mark e = (.ok (), (session.mark e).2) := by
  have reached := session.strategy.isReached_of_ok ok
  simp only [mark, resume, session.strategy.mark_of_isReached reached]
  rfl

/-! ## All states of a session -/

theorem balanced_fresh (scene : Scene) (strategy : Strategy) (loader : Loader)
    (recordRetention : Bool) :
    (fresh scene strategy loader recordRetention).state.Balanced scene.program where
  nodup := by simp [fresh]
  mem_iff e := by simp [fresh, State.isReached]
  types := rfl
  foreignClasses := rfl
  expansions kind := rfl
  total := rfl
  size := rfl

/-- Calls keep the books balanced. -/
theorem balanced_of_start (session : Session) (start : session.state.Balanced session.scene.program)
    (calls : List Call) : (session.after calls).state.Balanced session.scene.program :=
  (preserves_after (keptByVisits_balanced session.scene)
    (fun _ b => ⟨b.countRoot, b.types, b.foreignClasses, b.expansions, b.total, b.size⟩)
    start calls).1

end Session

/-- Exactly-once bookkeeping. After whatever calls of a fresh session, failed ones included, the
records agree. Any further call only adds to the end of the order, and marking an entity again right
after it was marked with success changes nothing at all. -/
theorem balanced_after (scene : Scene) (strategy : Strategy) (loader : Loader)
    (recordRetention : Bool) (calls : List Call) :
    let session := (Session.fresh scene strategy loader recordRetention).after calls
    session.state.Balanced scene.program ∧
    (∀ call, session.state.order.toList <+: (session.perform call).2.state.order.toList) ∧
    ∀ e, (session.mark e).1 = .ok () →
      (session.mark e).2.mark e = (.ok (), (session.mark e).2) := by
  intro session
  refine ⟨?_, fun call => (session.trail_after [call]).grows.order, fun e => Session.mark_again⟩
  have start := Session.balanced_fresh scene strategy loader recordRetention
  exact (Session.fresh scene strategy loader recordRetention).balanced_of_start start calls

/-- Owner precedence. After whatever calls of a fresh session, failed ones included, and in every
state that the loop passes through on the way, every owner stands in the order before what it
owns. -/
theorem ownersFirst_after (scene : Scene) (strategy : Strategy) (loader : Loader)
    (recordRetention : Bool) (calls : List Call) :
    let session := Session.fresh scene strategy loader recordRetention
    (session.after calls).state.OwnersFirst scene.program ∧
    ∀ m, session.PassesThrough calls m → m.state.OwnersFirst scene.program := by
  intro session
  have start : session.state.Ordered ∧ session.state.OwnersFirst scene.program := by
    refine ⟨(Session.balanced_fresh _ _ _ _).toOrdered, ?_⟩
    intro position e owner listed
    simp [session, Session.fresh] at listed
  obtain ⟨final, onTheWay⟩ := Session.preserves_after (keptByVisits_ownersFirst session.scene)
    (fun s kept => ⟨kept.1.countRoot, kept.2⟩) start calls
  exact ⟨final.2, fun m through => (onTheWay m through).2⟩

end Liveset
