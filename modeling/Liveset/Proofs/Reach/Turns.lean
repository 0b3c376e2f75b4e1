import Liveset.Proofs.Reach.Evaluation

/-!
# How many turns a marking takes

Every marking ends. How soon depends on what it newly reaches: for each thing that the rules of the
newly reached entities ask for, the loop takes a bounded number of turns (`turns_of_marking`).
Cycles in the program cost nothing beyond that, and neither do handles outside their arenas.

The turns are paid in advance, by frames (`stackCost`). A step costs one turn to take and eight for
the pending frame it leads to. A pending frame costs two turns, one to visit its entity and one to
leave its last step behind. While its owner is missing it costs three more for each owner above it:
one to go up, and two for the frame that this puts on the stack. A frame that waits for the owner
asked for directly above it has paid for going up already. So every move lowers the cost by one at
least, unless it visits an entity; and then the cost grows by no more than the steps of that entity
are worth.
-/

set_option autoImplicit false

namespace Liveset

open Relation (ReflTransGen)

/-! ## What rules ask for -/

namespace Need

theorem length_steps_meet (need : Need) (r : Repository) : (need.meet r).steps.length ≤ 2 := by
  cases need with
  | entity target => exact Nat.le_succ 1
  | overridden method => exact Nat.le_succ 1
  | foreignClass name =>
    rcases loading : r.tryLoad name with ⟨_ | id, r₁⟩ <;> simp [meet, loading]
  | foreignMember kind imported requester =>
    rcases loading : r.tryLoad imported.className with ⟨_ | id, r₁⟩
    · simp [meet, loading]
    · rcases found : foreignTarget? r₁ kind imported id with _ | member <;>
        simp [meet, loading, found]

/-- A need leads to a class and a member of it at most. -/
theorem length_steps_supply (needs : List Need) (r : Repository) :
    (supply r needs).steps.length ≤ 2 * needs.length := by
  induction needs generalizing r with
  | nil => exact Nat.le_refl _
  | cons need rest ih =>
    have first := length_steps_meet need r
    have others := ih (need.meet r).repository
    simp only [supply, List.length_append, List.length_cons]
    omega

end Need

namespace Scene

variable {scene : Scene} {r r' : Repository} {e : Entity}

/-- How many things the rule of an entity asks for; nothing, if it fails. -/
def needCount (scene : Scene) (r : Repository) (e : Entity) : Nat :=
  match scene.needs r e with
  | .ok needs => needs.length
  | .error _ => 0

/-- How many things the rules of several entities ask for. -/
def demand (scene : Scene) (r : Repository) : List Entity → Nat
  | [] => 0
  | e :: rest => scene.needCount r e + scene.demand r rest

theorem demand_append (entities others : List Entity) :
    scene.demand r (entities ++ others) = scene.demand r entities + scene.demand r others := by
  induction entities with
  | nil => simp only [List.nil_append, demand, Nat.zero_add]
  | cons e rest ih => simp only [List.cons_append, demand, ih, Nat.add_assoc]

theorem demand_le_of_prefix {entities others : List Entity} (initial : entities <+: others) :
    scene.demand r entities ≤ scene.demand r others := by
  obtain ⟨rest, rfl⟩ := initial
  rw [demand_append]
  exact Nat.le_add_right _ _

/-- The steps of a visit are counted by what the rule asks for at any later time. -/
theorem length_steps_expand {x : Expansion} (h : scene.expand r e = .ok x) (grown : r.Extends r') :
    x.steps.length ≤ 2 * scene.needCount r' e := by
  by_cases idle : x.steps = []
  · simp [idle]
  · have loaded := loaded_of_steps h idle
    obtain ⟨needs, asked, rfl⟩ := expand_eq_ok h
    have later : scene.needs r' e = .ok needs := (needs_of_extends grown loaded).trans asked
    simp only [needCount, later]
    exact Need.length_steps_supply needs r

end Scene

/-! ## Turns paid in advance -/

namespace Worklist

/-- The turns paid for a pending frame, with a frame that asks for `above` directly on it. -/
def pendingCost (p : Program) (s : State) (above : Option Entity) (e : Entity) : Nat :=
  match s.unreachedOwner? p e with
  | none => 2
  | some owner => if above = some owner then 2 else 3 * e.height + 2

/-- The turns paid for the frames of a stack, with a frame that asks for `above` directly on it. -/
def stackCost (p : Program) (s : State) : Option Entity → List Frame → Nat
  | _, [] => 0
  | above, .pending _ e :: below => pendingCost p s above e + stackCost p s (some e) below
  | _, .expanding _ steps :: below => 9 * steps.length + 1 + stackCost p s none below

section Cost

variable {p : Program} {s s' : State} {above : Option Entity} {e : Entity}

theorem pendingCost_le (p : Program) (s : State) (above : Option Entity) (e : Entity) :
    pendingCost p s above e ≤ 3 * e.height + 2 := by
  unfold pendingCost
  split
  · exact Nat.le_add_left _ _
  · split
    · exact Nat.le_add_left _ _
    · exact Nat.le_refl _

/-- The more is reached, the less a pending frame costs. -/
theorem pendingCost_mono (grown : s.Grows s') :
    pendingCost p s' above e ≤ pendingCost p s above e := by
  unfold pendingCost
  cases later : s'.unreachedOwner? p e with
  | none =>
    dsimp only
    split
    · exact Nat.le_refl _
    · split <;> exact Nat.le_add_left _ _
  | some owner =>
    -- An owner that is missing later was missing before.
    obtain ⟨owns, missing⟩ := State.unreachedOwner?_eq_some.1 later
    have before : s.unreachedOwner? p e = some owner :=
      State.unreachedOwner?_eq_some.2 ⟨owns, fun known => missing (grown.reached known)⟩
    rw [before]

theorem stackCost_mono (grown : s.Grows s') (above : Option Entity) (stack : List Frame) :
    stackCost p s' above stack ≤ stackCost p s above stack := by
  induction stack generalizing above with
  | nil => exact Nat.le_refl _
  | cons frame below ih =>
    cases frame with
    | pending source e => exact Nat.add_le_add (pendingCost_mono grown) (ih (some e))
    | expanding e steps => exact Nat.add_le_add_left (ih none) _

/-- A frame for a reached entity can go: none of the frames below waits for it as its owner. -/
theorem stackCost_of_isReached (reached : s.isReached e) (stack : List Frame) :
    stackCost p s none stack = stackCost p s (some e) stack := by
  cases stack with
  | nil => rfl
  | cons frame below =>
    cases frame with
    | expanding e' steps => rfl
    | pending source e' =>
      have same : pendingCost p s none e' = pendingCost p s (some e) e' := by
        unfold pendingCost
        cases missing : s.unreachedOwner? p e' with
        | none => rfl
        | some owner =>
          obtain ⟨-, unreached⟩ := State.unreachedOwner?_eq_some.1 missing
          have other : some e ≠ some owner := by
            rintro same
            cases same
            exact unreached reached
          simp only [if_neg other, reduceCtorEq, if_false]
      rw [stackCost, stackCost, same]

end Cost

/-- Every move uses up a turn that was paid for. Only a visit pays for more turns, eighteen for each
thing that the rule of the entity asks for. -/
theorem Move.stackCost_lt {scene : Scene} {m m' : Machine} {r : Repository} (h : Move scene m m')
    (later : m'.state.repository.Extends r) :
    stackCost scene.program m'.state none m'.stack + 1 + 18 * scene.demand r m.state.order.toList ≤
      stackCost scene.program m.state none m.stack + 18 * scene.demand r m'.state.order.toList := by
  cases h with
  | @reached s source e below known =>
    have popped := stackCost_of_isReached (p := scene.program) known below
    have paid : 2 ≤ pendingCost scene.program s none e := by
      unfold pendingCost
      split <;> simp
    simp only [stackCost]
    omega
  | @owner s source e above below new missing =>
    obtain ⟨owns, -⟩ := State.unreachedOwner?_eq_some.1 missing
    have higher := (Program.height_owner owns).1
    have up := pendingCost_le scene.program s none above
    have before : pendingCost scene.program s none e = 3 * e.height + 2 := by
      simp [pendingCost, missing]
    have waiting : pendingCost scene.program s (some above) e = 2 := by
      simp [pendingCost, missing]
    simp only [stackCost, before, waiting]
    omega
  | @visit s s' source e steps below new free visited =>
    obtain ⟨x, applied, rfl, same⟩ := State.visit_eq_ok visited
    have grown := State.grows_visit visited
    have worth := Scene.length_steps_expand applied (grown.repository.trans later)
    have known : s'.isReached e := (State.isReached_visit visited).2 (.inl rfl)
    have popped := stackCost_of_isReached (p := scene.program) known below
    have cheaper := stackCost_mono (p := scene.program) grown (some e) below
    have paid : pendingCost scene.program s none e = 2 := by
      simp [pendingCost, free]
    have one : scene.demand r [e] = scene.needCount r e := by
      simp [Scene.demand]
    simp only [stackCost, State.order_visit visited, Array.toList_push,
      Scene.demand_append, one, paid]
    omega
  | finish =>
    simp only [stackCost, List.length_nil]
    omega
  | skip idle =>
    simp only [stackCost, List.length_cons]
    omega
  | @take s e target step steps below asked =>
    have pending := pendingCost_le scene.program s none target
    have few := target.height_le_two
    simp only [stackCost, List.length_cons]
    omega

/-! ## Runs -/

/-- Moves that lead to the end of the loop are no more than the turns paid for. -/
theorem within_of_moves {scene : Scene} {m last : Machine} {outcome : Outcome}
    (moves : ReflTransGen (Move scene) m last) (stop : Stop scene last outcome) (bound : Nat)
    (enough : stackCost scene.program m.state none m.stack +
        18 * scene.demand outcome.state.repository outcome.state.order.toList <
      bound + 18 * scene.demand outcome.state.repository m.state.order.toList) :
    within scene bound m = some outcome := by
  induction moves using ReflTransGen.head_induction_on generalizing bound with
  | refl =>
    have reachedBefore := scene.demand_le_of_prefix (r := outcome.state.repository) stop.grows.order
    obtain ⟨fewer, rfl⟩ : ∃ fewer, bound = fewer + 1 := ⟨bound - 1, by omega⟩
    rw [within, stop.turn_eq]
  | @head m m' move rest ih =>
    have grown := (grows_of_moves rest).trans stop.grows
    have reachedBefore := scene.demand_le_of_prefix (r := outcome.state.repository)
      ((grows_of_moves (.single move)).trans grown).order
    have paid := move.stackCost_lt grown.repository
    obtain ⟨fewer, rfl⟩ : ∃ fewer, bound = fewer + 1 := ⟨bound - 1, by omega⟩
    rw [within, move.turn_eq]
    exact ih fewer (by omega)

/-- Enough turns for a marking that leads from `s` to `s'`: nine for the entity itself, and eighteen
for each thing that the rules of the newly reached entities ask for. -/
def turnBound (scene : Scene) (s s' : State) : Nat :=
  9 + 18 * scene.demand s'.repository (s'.order.toList.drop s.order.size)

end Worklist

/-- The marking loop ends, from every state and whatever entity is marked, in success or failure. It
takes no more turns than `turnBound`, which is linear in what the rules of the newly reached
entities ask for. -/
theorem turns_of_marking (scene : Scene) (s : State) (e : Entity) :
    ∃ outcome, Worklist.mark? scene s e = some outcome ∧
      Worklist.within scene (Worklist.turnBound scene s outcome.state) (Worklist.start s e) =
        some outcome := by
  obtain ⟨outcome, ended, -⟩ := exists_outcome scene s e
  refine ⟨outcome, ended, ?_⟩
  obtain ⟨last, moves, stop⟩ := Worklist.run_eq_some_iff.1 ended
  obtain ⟨added, order⟩ := ((Worklist.grows_of_moves moves).trans stop.grows).order
  have new : outcome.state.order.toList.drop s.order.size = added := by
    rw [← order]
    exact List.drop_left
  have pending := Worklist.pendingCost_le scene.program s none e
  have few := e.height_le_two
  apply Worklist.within_of_moves moves stop
  rw [Worklist.turnBound, new, ← order, Scene.demand_append]
  simp only [Worklist.start, Worklist.stackCost]
  omega

end Liveset
