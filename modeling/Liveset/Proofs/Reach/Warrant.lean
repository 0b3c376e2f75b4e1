import Liveset.Proofs.Reach.Closure

/-!
# Nothing is reached without a reason

`Required` is the least set of entities that has the roots and is closed under owners, under what
the rules ask for, and under overridden methods whose declaring types are in it. The rules are
applied to one repository; while a pass runs, the repository still grows, so an entity is said to be
warranted if it is required whatever the repository grows into (`Warranted`). Every reached entity
is warranted, and so is everything the stack asks for (`Justified`). This holds along every run,
failures included.
-/

set_option autoImplicit false

namespace Liveset

open Worklist

/-- The least set of entities that has the roots and is closed under owners, under the steps of the
rules and under overridden methods whose declaring types are in it. -/
inductive Required (scene : Scene) (r : Repository) (roots : Entity → Prop) : Entity → Prop where
  /-- A root. -/
  | root {e : Entity} (h : roots e) : Required scene r roots e
  /-- The owner of an entity. -/
  | owner {e owner : Entity} (owned : Required scene r roots e)
      (owns : scene.program.owner? e = some owner) : Required scene r roots owner
  /-- What the rule of an entity asks for. -/
  | step {e target : Entity} {x : Expansion} (source : Required scene r roots e)
      (applied : scene.expand r e = .ok x) (asked : .mark target ∈ x.steps) :
      Required scene r roots target
  /-- The method that a method overrides. -/
  | overridden {method base : MethodId} {declaring : TypeId}
      (source : Required scene r roots (.method method))
      (overrides : scene.program.overridden? method = some base)
      (declared : scene.program.methodDeclaringType? base = some declaring)
      (declarer : Required scene r roots (.type declaring)) : Required scene r roots (.method base)

variable {scene : Scene} {roots : Entity → Prop} {r r' : Repository} {e : Entity} {m m' : Machine}

/-- The entity is required, whatever the repository grows into. -/
def Warranted (scene : Scene) (roots : Entity → Prop) (r : Repository) (e : Entity) : Prop :=
  ∀ r', r.Extends r' → Required scene r' roots e

theorem Warranted.mono (h : Warranted scene roots r e) (grown : r.Extends r') :
    Warranted scene roots r' e :=
  fun r'' later => h r'' (grown.trans later)

theorem Warranted.owner {owner : Entity} (h : Warranted scene roots r e)
    (owns : scene.program.owner? e = some owner) : Warranted scene roots r owner :=
  fun r' later => (h r' later).owner owns

/-- What the rule of a warranted entity asks for is warranted once the rule has been applied. -/
theorem Warranted.step {x : Expansion} {target : Entity} (h : Warranted scene roots r e)
    (consistent : r.Consistent) (applied : scene.expand r e = .ok x)
    (asked : .mark target ∈ x.steps) : Warranted scene roots x.repository target := by
  intro r' later
  -- The rule gives the same steps when it is applied to whatever the repository has grown into.
  have loaded : e.Loaded r := Scene.loaded_of_steps applied (List.ne_nil_of_mem asked)
  have again := Scene.expand_of_extends consistent loaded applied later
  exact (h r' ((Scene.extends_expand applied).trans later)).step again asked

/-- Everything reached and everything that the stack asks for is warranted. -/
structure Justified (scene : Scene) (roots : Entity → Prop) (m : Machine) : Prop where
  consistent : m.state.repository.Consistent
  reached : ∀ e, m.state.isReached e → Warranted scene roots m.state.repository e
  asked : ∀ frame ∈ m.stack, ∀ target, frame.Asks target →
    Warranted scene roots m.state.repository target
  founded : Founded m

namespace Justified

/-- A visit of a new entity, whether or not its rule fails. -/
theorem visit {s s' : State} {source : Option Entity} {verdict : Except SupportError (List Step)}
    {below : List Frame} (h : Justified scene roots ⟨s, .pending source e :: below⟩)
    (visited : s.visit scene source e = (verdict, s')) :
    s'.repository.Consistent ∧
      ∀ x, s'.isReached x → Warranted scene roots s'.repository x := by
  have grown := (State.grows_visit visited).repository
  have top := (List.forall_mem_cons.1 h.asked).1 e rfl
  constructor
  · exact State.consistent_visit visited h.consistent
  · intro x reached
    rcases (State.isReached_visit visited).1 reached with rfl | before
    · exact top.mono grown
    · exact (h.reached x before).mono grown

theorem move (h : Justified scene roots m) (move : Move scene m m') : Justified scene roots m' := by
  have founded := h.founded.move move
  have asked : AsksOnly (fun s => Warranted scene roots s.repository) m' := by
    refine AsksOnly.move h.asked move (fun e above warranted owns => warranted.owner owns) ?_ ?_
    · intro e method steps below target shape resolved
      obtain ⟨base, ⟨overrides, declaring, declared, reached⟩, rfl⟩ :=
        State.overriddenTarget?_eq_some.1 resolved
      -- The conditional step stands there on behalf of a reached method, which is warranted.
      have overriding : m.state.isReached (.method method) :=
        h.founded _ (shape ▸ List.mem_cons_self) method List.mem_cons_self
      intro r' later
      exact (h.reached _ overriding r' later).overridden overrides declared
        (h.reached _ reached r' later)
    · intro s' source e steps visited warranted
      obtain ⟨x, applied, rfl, same⟩ := State.visit_eq_ok visited
      refine ⟨fun target wanted => ?_, fun target before => ?_⟩
      · exact same ▸ warranted.step h.consistent applied wanted
      · exact before.mono (State.grows_visit visited).repository
  cases move with
  | visit new free visited =>
    obtain ⟨consistent, reached⟩ := h.visit visited
    exact ⟨consistent, reached, asked, founded⟩
  | _ => exact ⟨h.consistent, h.reached, asked, founded⟩

/-- A marking that starts from a root keeps everything justified, whether or not it fails. -/
theorem mark {strategy : Strategy} {s : State} (h : Justified scene roots ⟨s, []⟩)
    (root : roots e) : Justified scene roots ⟨(strategy.mark scene s e).state, []⟩ := by
  obtain ⟨last, moves, stop⟩ := strategy.exists_moves scene s e
  have begin : Justified scene roots (start s e) := by
    refine ⟨h.consistent, h.reached, List.forall_mem_singleton.2 fun target asks => ?_,
      founded_start s e⟩
    cases asks
    exact fun r' _ => .root root
  have ended := keeps (fun _ _ move justified => justified.move move) moves begin
  generalize strategy.mark scene s e = outcome at stop
  cases stop with
  | done => exact ended
  | failed new free visited =>
    -- The entity whose rule fails stays reached, and was asked for; the stack is dropped.
    obtain ⟨consistent, reached⟩ := ended.visit visited
    exact ⟨consistent, reached, by simp, by simp [Founded]⟩

end Justified

/-! ## Sequences of calls -/

/-- The entities that calls start from: those they are given and, if they walk them, the attributes
of the program that reach the output. -/
def Given (scene : Scene) (calls : List Call) (e : Entity) : Prop :=
  (∃ call ∈ calls, e ∈ call.entities) ∨
    (.walkProgramAttributes ∈ calls ∧ ∃ id ∈ scene.program.programAttributes,
      scene.program.isCompilerOnly id = false ∧ e = .attribute id)

theorem given_of_mem_targets {session : Session} {calls : List Call} {call : Call}
    (listed : call ∈ calls) (target : e ∈ session.targets call) : Given session.scene calls e := by
  cases call with
  | walkProgramAttributes =>
    obtain ⟨id, member, rfl⟩ := List.mem_map.1 target
    obtain ⟨attached, kept⟩ := List.mem_filter.1 member
    exact .inr ⟨listed, id, attached, by simpa using kept, rfl⟩
  | mark entity => exact .inl ⟨_, listed, target⟩
  | markRoots entities => exact .inl ⟨_, listed, target⟩

theorem exists_target_of_given (session : Session) {calls : List Call}
    (given : Given session.scene calls e) : ∃ call ∈ calls, e ∈ session.targets call := by
  rcases given with ⟨call, listed, member⟩ | ⟨walked, id, attached, kept, rfl⟩
  · refine ⟨call, listed, ?_⟩
    cases call with
    | walkProgramAttributes => cases member
    | mark entity => exact member
    | markRoots roots => exact member
  · refine ⟨.walkProgramAttributes, walked, List.mem_map_of_mem ?_⟩
    simp [attached, kept]

/-- Soundness of a pass. Whatever calls are made of a fresh session, and whether or not they fail,
every reached entity is required: it is in the least set that has the entities the calls start from
and is closed under owners, under what the rules ask for in the end, and under overridden methods
whose declaring types are in the set. -/
theorem required_of_isReached {scene : Scene} {strategy : Strategy} {loader : Loader}
    {recordRetention : Bool} {calls : List Call} {e : Entity}
    (reached : ((Session.fresh scene strategy loader recordRetention).after calls).isReached e) :
    Required scene
      ((Session.fresh scene strategy loader recordRetention).after calls).state.repository
      (Given scene calls) e := by
  have fresh : Justified scene (Given scene calls)
      ⟨(Session.fresh scene strategy loader recordRetention).state, []⟩ := by
    refine ⟨Repository.consistent_fresh loader, fun e reached => ?_, by simp, by simp [Founded]⟩
    simp [Session.fresh, State.isReached] at reached
  have kept := (Session.trail_after (.fresh scene strategy loader recordRetention) calls).keeps
    (P := fun s => Justified scene (Given scene calls) ⟨s, []⟩)
    (fun s justified =>
      ⟨justified.consistent, justified.reached, justified.asked, justified.founded⟩)
    (fun s e marked justified => ?_) fresh
  · exact kept.1.reached e reached _ (.refl _)
  · obtain ⟨call, listed, target⟩ := Session.mem_targets_of_mem_markings marked
    exact justified.mark (given_of_mem_targets listed target)

set_option maxRecDepth 4000 in
/-- A foreign method of `bridge` is required by a session whose first call fails. -/
theorem required_bridge :
    let calls : List Call :=
      [.mark (some (.type ⟨3⟩)), .markRoots [.method ⟨1⟩], .walkProgramAttributes]
    let session := Session.ofBridge .worklist
    (session.history calls).map (·.1.isOk) = [false, true, true] ∧
      (session.after calls).isReached (.foreignMethod ⟨0⟩ 0) ∧
      Required session.scene (session.after calls).state.repository (Given session.scene calls)
        (.foreignMethod ⟨0⟩ 0) := by
  intro calls session
  have tested := session.attempt_any calls 100
    (fun entries final => entries.map (·.1.isOk) = [false, true, true] &&
      final.isReached (.foreignMethod ⟨0⟩ 0)) (by decide +kernel)
  simp only [Bool.and_eq_true, decide_eq_true_eq] at tested
  exact ⟨tested.1, tested.2, required_of_isReached tested.2⟩

end Liveset
