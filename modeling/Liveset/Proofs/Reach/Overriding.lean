import Liveset.Program.Index
import Liveset.Proofs.Reach.Evaluation
import Liveset.Proofs.Reach.Leading
import Liveset.Proofs.Reach.Order

/-!
# Overridden methods

A method asks for the method it overrides only if the type that declares that one is reached by the
time the step comes up. The step of every reached method comes up once, in a machine that decides it
(`Decides`), so the overridden method is reached at the end if its declaring type was reached in
that machine (`isReached_overridden`). It was if it precedes the method in the order, and it was, in
whatever order things were reached, if it is on the base chain of the type of the method and no type
on the way has generic parameters.

A type that is reached later makes no difference, as `overridden_not_reached` shows: the generic
parameters of a type are walked before its base type, and a constraint of theirs may lead to a
method of the type.
-/

set_option autoImplicit false

namespace Liveset

open Worklist
open Relation (ReflTransGen)

variable {scene : Scene} {m m' : Machine} {method : MethodId}

/-- In this machine it is decided whether the method that `method` overrides is asked for. -/
def Decides (method : MethodId) (m : Machine) : Prop :=
  ∃ e steps below, m.stack = .expanding e (.markOverridden method :: steps) :: below

/-- With these frames on the stack, the decision about `method` is still to come. -/
def Undecided (method : MethodId) (stack : List Frame) : Prop :=
  ∃ frame ∈ stack, frame.AsksOverridden method

/-! ## Every decision comes up -/

theorem undecided_cons {frame : Frame} {below : List Frame}
    (h : Undecided method (frame :: below)) :
    frame.AsksOverridden method ∨ Undecided method below := by
  obtain ⟨other, listed, asks⟩ := h
  rcases List.mem_cons.1 listed with rfl | listed
  · exact .inl asks
  · exact .inr ⟨other, listed, asks⟩

theorem undecided_of_below {frame : Frame} {below : List Frame} (h : Undecided method below) :
    Undecided method (frame :: below) := by
  obtain ⟨other, listed, asks⟩ := h
  exact ⟨other, List.mem_cons_of_mem _ listed, asks⟩

/-- A decision to come stays to come until it is made. -/
theorem Undecided.move (h : Undecided method m.stack) (move : Move scene m m') :
    Decides method m ∨ Undecided method m'.stack := by
  cases move with
  | reached known =>
    rcases undecided_cons h with asks | below
    · exact asks.elim
    · exact .inr below
  | owner new missing => exact .inr (undecided_of_below h)
  | visit new free visited =>
    rcases undecided_cons h with asks | below
    · exact asks.elim
    · exact .inr (undecided_of_below below)
  | finish =>
    rcases undecided_cons h with asks | below
    · cases asks
    · exact .inr below
  | skip idle =>
    rcases undecided_cons h with asks | below
    · rcases List.mem_cons.1 asks with rfl | asks
      · exact .inl ⟨_, _, _, rfl⟩
      · exact .inr ⟨_, List.mem_cons_self, asks⟩
    · exact .inr (undecided_of_below below)
  | take asked =>
    rcases undecided_cons h with asks | below
    · rcases List.mem_cons.1 asks with rfl | asks
      · exact .inl ⟨_, _, _, rfl⟩
      · exact .inr ⟨_, List.mem_cons_of_mem _ List.mem_cons_self, asks⟩
    · exact .inr (undecided_of_below (undecided_of_below below))

/-- A method that overrides another one has a decision to come when it is visited. -/
theorem undecided_of_new {base : MethodId}
    (overrides : scene.program.overridden? method = some base) (move : Move scene m m')
    (new : ¬ m.state.isReached (.method method))
    (reached : m'.state.isReached (.method method)) : Undecided method m'.stack := by
  cases move with
  | visit _ _ visited =>
    rcases (State.isReached_visit visited).1 reached with rfl | before
    · obtain ⟨x, applied, rfl, -⟩ := State.visit_eq_ok visited
      exact ⟨_, List.mem_cons_self, Scene.markOverridden_mem_of_overridden? overrides applied⟩
    · exact absurd before new
  | _ => exact absurd reached new

/-- Once the method is reached, the decision about it has been made or is still to come. -/
theorem tracked_of_moves {s : State} {e : Entity} {base : MethodId}
    (overrides : scene.program.overridden? method = some base)
    (new : ¬ s.isReached (.method method)) (moves : ReflTransGen (Move scene) (start s e) m) :
    m.state.isReached (.method method) →
      (∃ m, ReflTransGen (Move scene) (start s e) m ∧ Decides method m) ∨
        Undecided method m.stack := by
  -- The visit of the method puts its steps on the stack; until then there is nothing to show.
  induction moves with
  | refl => exact fun reached => absurd reached new
  | @tail m m' before move tracked =>
    intro reached
    by_cases old : m.state.isReached (.method method)
    · rcases tracked old with decided | undecided
      · exact .inl decided
      · rcases undecided.move move with decides | undecided
        · exact .inl ⟨m, before, decides⟩
        · exact .inr undecided
    · exact .inr (undecided_of_new overrides move old reached)

/-- In a marking that succeeds, the decision about every newly reached method is made. -/
theorem exists_decides_mark {strategy : Strategy} {s : State} {e : Entity} {base : MethodId}
    (ok : (strategy.mark scene s e).verdict = .ok ())
    (overrides : scene.program.overridden? method = some base)
    (new : ¬ s.isReached (.method method))
    (reached : (strategy.mark scene s e).state.isReached (.method method)) :
    ∃ m, ReflTransGen (Move scene) (start s e) m ∧ Decides method m := by
  rcases tracked_of_moves overrides new (strategy.moves_of_ok ok) reached with
    decided | ⟨frame, listed, -⟩
  · exact decided
  · cases listed

/-- Calls that succeed make the decision about every reached method. -/
theorem Session.Succeeds.exists_decides {session : Session} {calls : List Call}
    (h : session.Succeeds calls) {base : MethodId}
    (overrides : session.scene.program.overridden? method = some base)
    (new : ¬ session.isReached (.method method))
    (reached : (session.after calls).isReached (.method method)) :
    ∃ m, session.PassesThrough calls m ∧ Decides method m := by
  -- Kept along the trail: the decision about the method, if it is reached, was made on the way.
  refine ((session.trail_after calls).keeps
    (P := fun s => s.isReached (.method method) →
      ∃ m, session.PassesThrough calls m ∧ Decides method m)
    (fun _ decided => decided) (fun s e marked decided reached => ?_)
    (fun reached => absurd reached new)).1 reached
  by_cases old : s.isReached (.method method)
  · exact decided old
  · have ok := h.markings.2 s e marked
    obtain ⟨m, moves, decides⟩ := exists_decides_mark ok overrides old reached
    exact ⟨m, ⟨s, e, marked, moves⟩, decides⟩

/-! ## What a decision leads to -/

/-- A method is reached when the decision about it is made. -/
theorem Decides.isReached {session : Session} {calls : List Call} (h : Decides method m)
    (through : session.PassesThrough calls m) : m.state.isReached (.method method) := by
  obtain ⟨e, steps, below, top⟩ := h
  obtain ⟨s, e', -, moves⟩ := through
  have founded := founded_of_moves moves
  rw [Founded, top] at founded
  exact (List.forall_mem_cons.1 founded).1 method List.mem_cons_self

/-- If the declaring type is reached by then, the overridden method is reached at the end. -/
theorem Decides.isReached_asked {session : Session} {calls : List Call} {base : MethodId}
    {declaring : TypeId} (h : Decides method m) (through : session.PassesThrough calls m)
    (succeeds : session.Succeeds calls)
    (overrides : session.scene.program.overridden? method = some base)
    (declared : session.scene.program.methodDeclaringType? base = some declaring)
    (reached : m.state.isReached (.type declaring)) :
    (session.after calls).isReached (.method base) := by
  -- The next move asks for the overridden method, which is due from then on.
  obtain ⟨e, steps, below, top⟩ := h
  obtain ⟨s, e', marked, moves⟩ := through
  have asked : m.state.resolve? session.scene.program (.markOverridden method) =
      some (.method base) :=
    State.overriddenTarget?_eq_some.2 ⟨base, ⟨overrides, declaring, declared, reached⟩, rfl⟩
  have move : Move session.scene ⟨m.state, m.stack⟩
      ⟨m.state, .pending (some e) (.method base) :: .expanding e steps :: below⟩ :=
    top ▸ Move.take asked
  have next : session.PassesThrough calls
      ⟨m.state, .pending (some e) (.method base) :: .expanding e steps :: below⟩ :=
    ⟨s, e', marked, moves.tail move⟩
  exact next.isReached_of_due succeeds (due_of_top rfl)

/-- If the declaring type precedes the method in the order, it is reached by then. -/
theorem Decides.isReached_of_precedes {session : Session} {calls : List Call} {e : Entity}
    (h : Decides method m) (through : session.PassesThrough calls m)
    (ordered : session.state.Ordered)
    (precedes : (session.after calls).state.Precedes e (.method method)) : m.state.isReached e := by
  obtain ⟨final, onTheWay⟩ := Session.preserves_after (keptByVisits_ordered session.scene)
    (fun _ => State.Ordered.countRoot) ordered calls
  exact precedes.isReached through.grows (onTheWay m through) final (h.isReached through)

/-- If the declaring type is on the base chain of the type of the method, and no type on the way has
generic parameters, it is reached by then. -/
theorem Decides.isReached_of_mem_baseTypes {session : Session} {calls : List Call}
    {owner target : TypeId} (h : Decides method m) (through : session.PassesThrough calls m)
    (succeeds : session.Succeeds calls) (follows : session.state.FollowsLeads session.scene.program)
    (owned : session.state.Owned session.scene.program)
    (owns : session.scene.program.owner? (.method method) = some (.type owner))
    (member : target ∈ session.scene.program.baseTypes owner)
    (plain : ∀ t ∈ owner :: (session.scene.program.baseTypes owner).takeWhile (· ≠ target),
      session.scene.program.isGeneric t = false) : m.state.isReached (.type target) := by
  -- The top frame holds a conditional step, so no lead is still to be followed.
  have follows : m.state.FollowsLeads session.scene.program := by
    refine (succeeds.led follows through).followsLeads fun next top => ?_
    obtain ⟨e, steps, below, shape⟩ := h
    rw [shape] at top
    cases top
  obtain ⟨-, onTheWay⟩ := Session.preserves_after (keptByVisits_owned session.scene)
    (fun _ owned => owned) owned calls
  have reached := onTheWay m through (.method method) (.type owner) (h.isReached through) owns
  exact follows.isReached_of_mem_baseTypes reached member plain

/-- The rule for overridden methods. In a pass whose calls all succeed, take a reached method, the
method it overrides and the type that declares that one. The decision about them is made on the way.
The overridden method is reached at the end if the declaring type is reached when that happens; if
it precedes the method in the order; and in any case if it is on the base chain of the type of the
method, with no generic parameters on any type before it on that chain. -/
theorem isReached_overridden {scene : Scene} {strategy : Strategy} {loader : Loader}
    {recordRetention : Bool} {calls : List Call} {method base : MethodId} {declaring : TypeId}
    (succeeds : (Session.fresh scene strategy loader recordRetention).Succeeds calls)
    (reached : ((Session.fresh scene strategy loader recordRetention).after calls).isReached
      (.method method))
    (overrides : scene.program.overridden? method = some base)
    (declared : scene.program.methodDeclaringType? base = some declaring) :
    let session := Session.fresh scene strategy loader recordRetention
    (∃ m, session.PassesThrough calls m ∧ Decides method m) ∧
    (∀ m, session.PassesThrough calls m → Decides method m → m.state.isReached (.type declaring) →
      (session.after calls).isReached (.method base)) ∧
    ((session.after calls).state.Precedes (.type declaring) (.method method) →
      (session.after calls).isReached (.method base)) ∧
    ∀ owner, scene.program.owner? (.method method) = some (.type owner) →
      declaring ∈ scene.program.baseTypes owner →
      (∀ t ∈ owner :: (scene.program.baseTypes owner).takeWhile (· ≠ declaring),
        scene.program.isGeneric t = false) →
      (session.after calls).isReached (.method base) := by
  intro session
  have nothing : ∀ e, ¬ session.state.isReached e := fun e => by
    simp [session, Session.fresh, State.isReached]
  obtain ⟨m, through, decides⟩ := succeeds.exists_decides overrides (nothing _) reached
  have decision (m : Machine) (through : session.PassesThrough calls m) (decides : Decides method m)
      (known : m.state.isReached (.type declaring)) :=
    decides.isReached_asked through succeeds overrides declared known
  refine ⟨⟨m, through, decides⟩, decision, fun precedes => ?_, fun owner owns member plain => ?_⟩
  · apply decision m through decides
    refine decides.isReached_of_precedes through ⟨?_, fun e => ?_⟩ precedes
    · simp [Session.fresh]
    · simp [Session.fresh, State.isReached]
  · apply decision m through decides
    refine decides.isReached_of_mem_baseTypes through succeeds ?_ ?_ owns member plain
    · exact fun id next known => absurd known (nothing _)
    · exact fun e owner known => absurd known (nothing _)

/-! ## A declaring type that comes too late -/

/-- The type `Derived` has a generic parameter whose constraint runs a method of `Derived` when it
is initialised. That method overrides one of `Base`. -/
def lateBase : Program :=
  Program.rebuild {
    types := #[
      .definition { namespaceName := "App", name := "Base", methods := [⟨0⟩] },
      .definition
        { namespaceName := "App", name := "Derived`1", baseType := some ⟨0⟩, methods := [⟨1⟩]
          genericParameters := [⟨0⟩] },
      .definition { namespaceName := "App", name := "Constraint", methods := [⟨2⟩] },
      .definition { namespaceName := "Compiler.Internal", name := "TypeHelper" },
      .definition { namespaceName := "Compiler.Internal", name := "GenericInstanceAnnotation" },
      .definition
        { namespaceName := "Compiler.Internal", name := "GenericTypeParameterAnnotation" },
      .definition { namespaceName := "System", name := "Void" }]
    methods := #[
      .definition
        { declaringType := ⟨0⟩, name := "Run", returnType := ⟨6⟩, flags := { virtual := true } },
      .definition
        { declaringType := ⟨1⟩, name := "Run", returnType := ⟨6⟩, flags := { virtual := true } },
      .definition
        { declaringType := ⟨2⟩, name := ".cctor", returnType := ⟨6⟩, flags := { static := true }
          body := some { instructions := [{ opcode := .call, operand := .method ⟨1⟩ }] } }]
    genericParameters := #[{ owner := .type ⟨1⟩, name := "T", constraints := [⟨2⟩] }] }

/-- A session over `lateBase` that keeps no members on its own account. -/
def Session.ofLateBase : Session :=
  .fresh { program := lateBase, includes := fun _ => false } .worklist .empty true

set_option maxRecDepth 4000 in
/-- Marking `Base` first, the overridden method is reached: `Base` precedes the method. -/
theorem isReached_overridden_lateBase :
    let calls : List Call := [.mark (some (.type ⟨0⟩)), .mark (some (.type ⟨1⟩))]
    let final := Session.ofLateBase.after calls
    Session.ofLateBase.Succeeds calls ∧ final.isReached (.method ⟨1⟩) ∧
      final.state.Precedes (.type ⟨0⟩) (.method ⟨1⟩) ∧ final.isReached (.method ⟨0⟩) := by
  intro calls final
  have tested := Session.ofLateBase.attempt_any calls 100
    (fun entries final => entries.all (·.1.isOk) && final.isReached (.method ⟨1⟩) &&
      final.state.order.toList = [.type ⟨0⟩, .type ⟨1⟩, .type ⟨3⟩, .type ⟨4⟩, .type ⟨5⟩,
        .genericParameter ⟨0⟩, .type ⟨2⟩, .method ⟨2⟩, .type ⟨6⟩] ++ .method ⟨1⟩ :: [.method ⟨0⟩])
    (by decide +kernel)
  simp only [Bool.and_eq_true, decide_eq_true_eq] at tested
  obtain ⟨⟨ok, reached⟩, order⟩ := tested
  have precedes : final.state.Precedes (.type ⟨0⟩) (.method ⟨1⟩) :=
    ⟨_, _, order, List.mem_cons_self⟩
  have succeeds := Session.succeeds_of_isOk ok
  have rule := @isReached_overridden _ _ _ _ calls ⟨1⟩ ⟨0⟩ ⟨0⟩ succeeds reached
    (by decide +kernel) (by decide +kernel)
  exact ⟨succeeds, reached, precedes, rule.2.2.1 precedes⟩

set_option maxRecDepth 4000 in
/-- Marking `Derived` alone, its method is reached before `Base`, and the method that it overrides
is not reached although `Base` is. -/
theorem overridden_not_reached :
    let calls : List Call := [.mark (some (.type ⟨1⟩))]
    let final := Session.ofLateBase.after calls
    Session.ofLateBase.Succeeds calls ∧ final.isReached (.method ⟨1⟩) ∧
      lateBase.overridden? ⟨1⟩ = some ⟨0⟩ ∧ lateBase.methodDeclaringType? ⟨0⟩ = some ⟨0⟩ ∧
      final.isReached (.type ⟨0⟩) ∧ ¬ final.isReached (.method ⟨0⟩) := by
  intro calls final
  have tested := Session.ofLateBase.attempt_any calls 100
    (fun entries final => entries.all (·.1.isOk) && final.isReached (.method ⟨1⟩) &&
      final.isReached (.type ⟨0⟩) && !final.isReached (.method ⟨0⟩)) (by decide +kernel)
  simp only [Bool.and_eq_true, Bool.not_eq_true'] at tested
  obtain ⟨⟨⟨ok, overriding⟩, declaring⟩, overridden⟩ := tested
  have succeeds := Session.succeeds_of_isOk ok
  refine ⟨succeeds, overriding, by decide +kernel, by decide +kernel, declaring, ?_⟩
  exact Bool.eq_false_iff.1 overridden

end Liveset
