import Liveset.Program.Index
import Liveset.Proofs.Reach.Evaluation

/-!
# The reached entities are closed

While the loop runs, a reached entity may ask for entities that are not reached yet: those are due.
`Tended` says that nothing else is missing, and that every rule gives the same steps whenever it is
applied again, although the repository goes on growing. A move keeps it (`Tended.move`). With an
empty stack it says that the reached entities are closed under owners and rules, and so they are
after calls that succeed (`Session.Succeeds.tended`).
-/

set_option autoImplicit false

namespace Liveset

open Worklist

variable {scene : Scene} {m m' : Machine}

/-- Every reached entity has its owner reached and its rule applied, and what the rule asks for is
reached or asked for by the stack. Foreign entities belong to loaded classes. -/
structure Tended (scene : Scene) (m : Machine) : Prop where
  consistent : m.state.repository.Consistent
  loaded : ∀ e, m.state.isReached e → e.Loaded m.state.repository
  asked : ∀ frame ∈ m.stack, ∀ target, frame.Asks target → target.Loaded m.state.repository
  owner : ∀ e owner, m.state.isReached e → scene.program.owner? e = some owner →
    m.state.isReached owner
  rule : ∀ e, m.state.isReached e → ∃ x, scene.expand m.state.repository e = .ok x ∧
    x.repository = m.state.repository ∧ ∀ target, .mark target ∈ x.steps → Due target m

namespace Tended

/-- Only the stack changes. -/
theorem restack {s : State} {stack stack' : List Frame} (h : Tended scene ⟨s, stack⟩)
    (asked : AsksOnly (fun s target => target.Loaded s.repository) ⟨s, stack'⟩)
    (due : ∀ target, Due target ⟨s, stack⟩ → Due target ⟨s, stack'⟩) :
    Tended scene ⟨s, stack'⟩ where
  consistent := h.consistent
  loaded := h.loaded
  asked := asked
  owner := h.owner
  rule e reached := by
    obtain ⟨x, applied, same, steps⟩ := h.rule e reached
    exact ⟨x, applied, same, fun target wanted => due target (steps target wanted)⟩

/-- A visit of a new entity, whose owner is reached, applies one more rule. -/
theorem visit {s s' : State} {source : Option Entity} {e : Entity} {steps : List Step}
    {below : List Frame} (h : Tended scene ⟨s, .pending source e :: below⟩)
    (free : s.unreachedOwner? scene.program e = none)
    (visited : s.visit scene source e = (.ok steps, s'))
    (asked : AsksOnly (fun s target => target.Loaded s.repository)
      ⟨s', .expanding e steps :: below⟩)
    (due : ∀ target, Due target ⟨s, .pending source e :: below⟩ →
      Due target ⟨s', .expanding e steps :: below⟩) :
    Tended scene ⟨s', .expanding e steps :: below⟩ := by
  obtain ⟨x, applied, rfl, same⟩ := State.visit_eq_ok visited
  have top := (List.forall_mem_cons.1 h.asked).1
  have grown := (State.grows_visit visited).repository
  have free := State.unreachedOwner?_eq_none.1 free
  constructor
  case consistent => exact same ▸ Scene.consistent_expand h.consistent applied
  case loaded =>
    intro e' reached
    rcases (State.isReached_visit visited).1 reached with rfl | before
    · exact (top _ rfl).mono grown
    · exact (h.loaded e' before).mono grown
  case asked => exact asked
  case owner =>
    intro e' owner reached owns
    apply (State.isReached_visit visited).2
    rcases (State.isReached_visit visited).1 reached with rfl | before
    · exact .inr (free owner owns)
    · exact .inr (h.owner e' owner before owns)
  case rule =>
    -- Every rule is applied again to the repository that the visit leaves. It gives the steps it
    -- gave, as that repository extends the one to which it was applied.
    intro e' reached
    rcases (State.isReached_visit visited).1 reached with rfl | before
    · refine ⟨_, Scene.expand_of_extends h.consistent (top _ rfl) applied ?_, rfl, ?_⟩
      · exact same ▸ .refl _
      · exact fun target wanted => due_of_top wanted
    · obtain ⟨x', applied', same', steps⟩ := h.rule e' before
      refine ⟨_, Scene.expand_of_extends h.consistent (h.loaded e' before) applied' ?_, rfl, ?_⟩
      · exact same' ▸ grown
      · exact fun target wanted => due target (steps target wanted)

theorem move (h : Tended scene m) (move : Move scene m m') : Tended scene m' := by
  have due : ∀ target, Due target m → Due target m' := fun target due => due.move move
  have asked : AsksOnly (fun s target => target.Loaded s.repository) m' := by
    refine AsksOnly.move h.asked move (fun e above loaded owns => loaded.owner owns) ?_ ?_
    · intro e method steps below target _ resolved
      obtain ⟨base, -, rfl⟩ := State.overriddenTarget?_eq_some.1 resolved
      exact Entity.loaded_of_not_foreign rfl
    · intro s' source e steps visited _
      obtain ⟨x, applied, rfl, same⟩ := State.visit_eq_ok visited
      refine ⟨fun target wanted => ?_, fun target loaded => ?_⟩
      · exact same ▸ Scene.loaded_of_expand h.consistent applied wanted
      · exact loaded.mono (State.grows_visit visited).repository
  cases move with
  | visit new free visited => exact h.visit free visited asked due
  | _ => exact h.restack asked due

/-- A marking begins with an entity of the program or of a loaded class. -/
theorem begin {s : State} {e : Entity} (h : Tended scene ⟨s, []⟩) (loaded : e.Loaded s.repository) :
    Tended scene (start s e) := by
  refine h.restack (List.forall_mem_singleton.2 fun target asks => ?_) fun target due => ?_
  · cases asks
    exact loaded
  · exact due_of_below due

end Tended

/-! ## Sequences of calls -/

theorem tended_fresh (scene : Scene) (strategy : Strategy) (loader : Loader)
    (recordRetention : Bool) :
    Tended scene ⟨(Session.fresh scene strategy loader recordRetention).state, []⟩ where
  consistent := Repository.consistent_fresh loader
  loaded e reached := by simp [Session.fresh, State.isReached] at reached
  asked frame listed := by cases listed
  owner e owner reached := by simp [Session.fresh, State.isReached] at reached
  rule e reached := by simp [Session.fresh, State.isReached] at reached

/-- Calls that are given no foreign entity have none among their targets. -/
theorem Session.native_of_mem_targets {session : Session} {calls : List Call} {call : Call}
    {e : Entity} (native : ∀ call ∈ calls, ∀ e ∈ call.entities, e.isForeign = false)
    (listed : call ∈ calls) (target : e ∈ session.targets call) : e.isForeign = false := by
  cases call with
  | walkProgramAttributes =>
    obtain ⟨id, -, rfl⟩ := List.mem_map.1 target
    rfl
  | mark entity => exact native _ listed e target
  | markRoots roots => exact native _ listed e target

/-- Calls that succeed, and are given no foreign entity, leave the reached entities closed. -/
theorem Session.Succeeds.tended {strategy : Strategy} {loader : Loader} {recordRetention : Bool}
    {calls : List Call} (h : (fresh scene strategy loader recordRetention).Succeeds calls)
    (native : ∀ call ∈ calls, ∀ e ∈ call.entities, e.isForeign = false) :
    Tended scene ⟨((fresh scene strategy loader recordRetention).after calls).state, []⟩ := by
  refine (h.keeps Tended.move (fun s e target tended => tended.begin ?_)
    (fun s tended => ⟨tended.consistent, tended.loaded, tended.asked, tended.owner, tended.rule⟩)
    (tended_fresh scene strategy loader recordRetention)).1
  obtain ⟨call, listed, target⟩ := target
  exact Entity.loaded_of_not_foreign (native_of_mem_targets native listed target)

/-- Nothing that the calls ask for is missing from a state: the entities given and, if they were
walked, the attributes of the program are reached, and with every reached entity its owner and all
that its rule, applied in this state, asks for. Applying a rule again loads no further class. -/
structure Complete (scene : Scene) (calls : List Call) (s : State) : Prop where
  given : ∀ call ∈ calls, ∀ e ∈ call.entities, s.isReached e
  attributes : .walkProgramAttributes ∈ calls → ∀ id ∈ scene.program.programAttributes,
    scene.program.isCompilerOnly id = false → s.isReached (.attribute id)
  owner : ∀ e, s.isReached e → ∀ owner, scene.program.owner? e = some owner → s.isReached owner
  rule : ∀ e, s.isReached e → ∃ x, scene.expand s.repository e = .ok x ∧
    x.repository = s.repository ∧ ∀ target, .mark target ∈ x.steps → s.isReached target

/-- A pass whose calls all succeed, and are given no foreign entity, is complete. -/
theorem complete_of_succeeds {scene : Scene} {strategy : Strategy} {loader : Loader}
    {recordRetention : Bool} {calls : List Call}
    (succeeds : (Session.fresh scene strategy loader recordRetention).Succeeds calls)
    (native : ∀ call ∈ calls, ∀ e ∈ call.entities, e.isForeign = false) :
    Complete scene calls
      ((Session.fresh scene strategy loader recordRetention).after calls).state := by
  have tended := succeeds.tended native
  constructor
  case given =>
    intro call listed e given
    apply succeeds.isReached_target listed
    cases call with
    | walkProgramAttributes => cases given
    | mark entity => exact given
    | markRoots roots => exact given
  case attributes =>
    intro listed id member kept
    apply succeeds.isReached_target listed
    apply List.mem_map_of_mem
    simp [Session.fresh, member, kept]
  case owner => exact fun e reached owner owns => tended.owner e owner reached owns
  case rule =>
    intro e reached
    obtain ⟨x, applied, same, steps⟩ := tended.rule e reached
    refine ⟨x, applied, same, fun target wanted => ?_⟩
    rcases steps target wanted with reached | ⟨frame, listed, -⟩
    · exact reached
    · cases listed

/-! ## A program to walk -/

/-- Two types that name each other as their base, one of them standing for a foreign class, and an
attribute on the program as a whole. The type `Box` relies on support types that are not there. -/
def bridge : Program :=
  Program.rebuild {
    types := #[
      .definition
        { namespaceName := "App", name := "Collection", baseType := some ⟨1⟩, methods := [⟨0⟩]
          foreignImport := some "java.util.List" },
      .definition
        { namespaceName := "App", name := "Component", baseType := some ⟨0⟩, methods := [⟨1⟩] },
      .definition { namespaceName := "App", name := "Label", methods := [⟨2⟩] },
      .definition { namespaceName := "App", name := "Box", genericParameters := [⟨0⟩] },
      .definition { namespaceName := "System", name := "Void" }]
    methods := #[
      .definition
        { declaringType := ⟨0⟩, name := "Count", returnType := ⟨4⟩, flags := { virtual := true }
          imported := some
            { className := "java.util.List", memberName := "size", descriptor := "()I" } },
      .definition
        { declaringType := ⟨1⟩, name := "Count", returnType := ⟨4⟩, flags := { virtual := true }
          body := some { instructions := [{ opcode := .call, operand := .method ⟨0⟩ }] } },
      .definition { declaringType := ⟨2⟩, name := ".ctor", returnType := ⟨4⟩ }]
    genericParameters := #[{ owner := .type ⟨3⟩, name := "T" }]
    attributes := #[{ constructor := ⟨2⟩ }]
    programAttributes := [⟨0⟩] }

/-- The foreign classes behind `bridge`. -/
def library : Loader :=
  .ofClasses [
    { name := "java/util/List", superClass := some "java/lang/Object"
      methods := [⟨"size", "()I"⟩] },
    { name := "java/lang/Object" }]

/-- A session over `bridge` that keeps no members on its own account. -/
def Session.ofBridge (strategy : Strategy) : Session :=
  .fresh { program := bridge, includes := fun _ => false } strategy library true

set_option maxRecDepth 4000 in
/-- Walking `bridge` from one of its methods crosses the border to the foreign classes. -/
theorem complete_bridge :
    let calls : List Call := [.markRoots [.method ⟨1⟩], .walkProgramAttributes]
    let final := ((Session.ofBridge .recursive).after calls).state
    (Session.ofBridge .recursive).Succeeds calls ∧ final.isReached (.foreignMethod ⟨0⟩ 0) ∧
      final.isReached (.foreignClass ⟨1⟩) ∧
      Complete (Session.ofBridge .recursive).scene calls final := by
  intro calls final
  have tested := (Session.ofBridge .recursive).attempt_any calls 100
    (fun entries final => entries.all (·.1.isOk) && final.isReached (.foreignMethod ⟨0⟩ 0) &&
      final.isReached (.foreignClass ⟨1⟩)) (by decide +kernel)
  simp only [Bool.and_eq_true] at tested
  obtain ⟨⟨ok, method⟩, parent⟩ := tested
  have succeeds := Session.succeeds_of_isOk ok
  exact ⟨succeeds, method, parent, complete_of_succeeds succeeds (by decide)⟩

end Liveset
