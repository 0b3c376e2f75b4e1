import Liveset.Proofs.Reach.Visit
import Liveset.Reach.Worklist
import Mathlib.Logic.Relation

/-!
# What a turn of the loop can do

`Move` lists the ways in which a turn leads to the next one, `Stop` the two ways in which the loop
is over. The loop gives an outcome exactly if moves lead from its start to a machine that stops with
it (`run_eq_some_iff`), so whatever every move keeps holds when the loop is over.

A target is due while it is reached or the stack still asks for it. No move loses sight of what is
due, and with an empty stack all that is due is reached (`Due.reached_of_done`). Where the targets
on the stack come from is said once for all properties of targets (`AsksOnly.move`). Steps towards
overridden methods are not due: they may ask for nothing. They only ever stand on the stack on
behalf of reached methods (`Founded`).
-/

set_option autoImplicit false

namespace Liveset.Worklist

open Relation (ReflTransGen)

variable {scene : Scene} {m m' last : Machine} {outcome : Outcome}

/-! ## Moves -/

/-- One turn that does not end the loop. -/
inductive Move (scene : Scene) : Machine → Machine → Prop where
  /-- The pending entity is reached already. -/
  | reached {s : State} {source : Option Entity} {e : Entity} {below : List Frame}
      (known : s.isReached e) : Move scene ⟨s, .pending source e :: below⟩ ⟨s, below⟩
  /-- The owner of the pending entity comes first. -/
  | owner {s : State} {source : Option Entity} {e above : Entity} {below : List Frame}
      (new : ¬ s.isReached e) (missing : s.unreachedOwner? scene.program e = some above) :
      Move scene ⟨s, .pending source e :: below⟩
        ⟨s, .pending source above :: .pending source e :: below⟩
  /-- The pending entity is visited. -/
  | visit {s s' : State} {source : Option Entity} {e : Entity} {steps : List Step}
      {below : List Frame} (new : ¬ s.isReached e)
      (free : s.unreachedOwner? scene.program e = none)
      (visited : s.visit scene source e = (.ok steps, s')) :
      Move scene ⟨s, .pending source e :: below⟩ ⟨s', .expanding e steps :: below⟩
  /-- All steps of an entity are taken. -/
  | finish {s : State} {e : Entity} {below : List Frame} :
      Move scene ⟨s, .expanding e [] :: below⟩ ⟨s, below⟩
  /-- The next step asks for nothing. -/
  | skip {s : State} {e : Entity} {step : Step} {steps : List Step} {below : List Frame}
      (idle : s.resolve? scene.program step = none) :
      Move scene ⟨s, .expanding e (step :: steps) :: below⟩ ⟨s, .expanding e steps :: below⟩
  /-- The next step asks for an entity. -/
  | take {s : State} {e target : Entity} {step : Step} {steps : List Step} {below : List Frame}
      (asked : s.resolve? scene.program step = some target) :
      Move scene ⟨s, .expanding e (step :: steps) :: below⟩
        ⟨s, .pending (some e) target :: .expanding e steps :: below⟩

/-- A turn that ends the loop. -/
inductive Stop (scene : Scene) : Machine → Outcome → Prop where
  /-- Nothing is left to do. -/
  | done {s : State} : Stop scene ⟨s, []⟩ (.done s)
  /-- The rule of the pending entity fails. -/
  | failed {s s' : State} {source : Option Entity} {e : Entity} {error : SupportError}
      {below : List Frame} (new : ¬ s.isReached e)
      (free : s.unreachedOwner? scene.program e = none)
      (visited : s.visit scene source e = (.error error, s')) :
      Stop scene ⟨s, .pending source e :: below⟩ (.failed error s')

theorem Move.turn_eq (h : Move scene m m') : turn scene m = .next m' := by
  cases h with
  | reached known => rw [turn, examine, if_pos known]
  | owner new missing => rw [turn, examine, if_neg new, missing]
  | visit new free visited =>
    rw [turn, examine, if_neg new, free]
    simp only [visited]
  | finish => rfl
  | skip idle => rw [turn, advance, idle]
  | take asked => rw [turn, advance, asked]

theorem Stop.turn_eq (h : Stop scene m outcome) : turn scene m = .over outcome := by
  cases h with
  | done => rfl
  | failed new free visited =>
    rw [turn, examine, if_neg new, free]
    simp only [visited]

/-- There is nothing else that a turn can do. -/
theorem move_or_stop (scene : Scene) (m : Machine) :
    (∃ m', Move scene m m') ∨ ∃ outcome, Stop scene m outcome := by
  obtain ⟨s, _ | ⟨frame, below⟩⟩ := m
  · exact .inr ⟨_, .done⟩
  cases frame with
  | pending source e =>
    by_cases known : s.isReached e
    · exact .inl ⟨_, .reached known⟩
    cases owned : s.unreachedOwner? scene.program e with
    | some above => exact .inl ⟨_, .owner known owned⟩
    | none =>
      rcases visited : s.visit scene source e with ⟨error | steps, s'⟩
      · exact .inr ⟨_, .failed known owned visited⟩
      · exact .inl ⟨_, .visit known owned visited⟩
  | expanding e steps =>
    rcases steps with _ | ⟨step, steps⟩
    · exact .inl ⟨_, .finish⟩
    · cases asked : s.resolve? scene.program step with
      | none => exact .inl ⟨_, .skip asked⟩
      | some target => exact .inl ⟨_, .take asked⟩

/-! ## Runs -/

theorem Move.run_eq (h : Move scene m m') : m.run scene = m'.run scene := by
  rw [Machine.run, h.turn_eq]

theorem Stop.run_eq (h : Stop scene m outcome) : m.run scene = some outcome := by
  rw [Machine.run, h.turn_eq]

theorem run_eq_some_iff :
    m.run scene = some outcome ↔
      ∃ last, ReflTransGen (Move scene) m last ∧ Stop scene last outcome := by
  constructor
  · -- The loop unfolds to a turn followed by the loop, which is assumed to be right.
    refine Machine.run.partial_correctness scene
      (fun m outcome => ∃ last, ReflTransGen (Move scene) m last ∧ Stop scene last outcome)
      (fun loop right m outcome ended => ?_) m outcome
    rcases move_or_stop scene m with ⟨m', move⟩ | ⟨outcome', stop⟩
    · rw [move.turn_eq] at ended
      obtain ⟨last, moves, stop⟩ := right m' outcome ended
      exact ⟨last, .head move moves, stop⟩
    · rw [stop.turn_eq] at ended
      cases ended
      exact ⟨m, .refl, stop⟩
  · rintro ⟨last, moves, stop⟩
    induction moves using ReflTransGen.head_induction_on with
    | refl => exact stop.run_eq
    | head move _ ih => rw [move.run_eq, ih]

/-- What every move keeps, moves keep. -/
theorem keeps {P : Machine → Prop} (step : ∀ m m', Move scene m m' → P m → P m')
    (moves : ReflTransGen (Move scene) m m') (start : P m) : P m' := by
  induction moves with
  | refl => exact start
  | tail _ move ih => exact step _ _ move ih

/-- Moves do not change how the loop ends. -/
theorem run_eq_of_moves (moves : ReflTransGen (Move scene) m m') : m.run scene = m'.run scene := by
  induction moves with
  | refl => rfl
  | tail _ move ih => rw [ih, move.run_eq]

/-- What visits keep, a move keeps. -/
theorem Move.preserves {P : State → Prop} (visit : KeptByVisits scene P) (h : Move scene m m')
    (start : P m.state) : P m'.state := by
  cases h with
  | visit new free visited =>
    exact visit _ _ _ _ _ visited new (State.unreachedOwner?_eq_none.1 free) start
  | _ => exact start

theorem Stop.preserves {P : State → Prop} (visit : KeptByVisits scene P) (h : Stop scene m outcome)
    (start : P m.state) : P outcome.state := by
  cases h with
  | done => exact start
  | failed new free visited =>
    exact visit _ _ _ _ _ visited new (State.unreachedOwner?_eq_none.1 free) start

theorem preserves_of_moves {P : State → Prop} (visit : KeptByVisits scene P)
    (moves : ReflTransGen (Move scene) m m') (start : P m.state) : P m'.state :=
  keeps (P := fun m => P m.state) (fun _ _ move kept => move.preserves visit kept) moves start

theorem grows_of_moves (moves : ReflTransGen (Move scene) m m') : m.state.Grows m'.state :=
  preserves_of_moves (keptByVisits_grows scene m.state) moves (.refl _)

theorem Stop.grows (h : Stop scene m outcome) : m.state.Grows outcome.state :=
  h.preserves (keptByVisits_grows scene m.state) (.refl _)

/-! ## What is due -/

/-- The frame asks for the target, or will. -/
def Frame.Asks (target : Entity) : Frame → Prop
  | .pending _ e => e = target
  | .expanding _ steps => .mark target ∈ steps

/-- The target is reached, or the stack asks for it. -/
def Due (target : Entity) (m : Machine) : Prop :=
  m.state.isReached target ∨ ∃ frame ∈ m.stack, frame.Asks target

theorem due_of_below {s : State} {target : Entity} {frame : Frame} {below : List Frame}
    (due : Due target ⟨s, below⟩) : Due target ⟨s, frame :: below⟩ := by
  rcases due with reached | ⟨other, listed, asks⟩
  · exact .inl reached
  · exact .inr ⟨other, List.mem_cons_of_mem _ listed, asks⟩

theorem due_of_top {s : State} {target : Entity} {frame : Frame} {below : List Frame}
    (asks : frame.Asks target) : Due target ⟨s, frame :: below⟩ :=
  .inr ⟨frame, List.mem_cons_self, asks⟩

/-- What is due is reached, or the top frame asks for it, or it is due below. -/
theorem due_cons {s : State} {target : Entity} {frame : Frame} {below : List Frame}
    (due : Due target ⟨s, frame :: below⟩) : frame.Asks target ∨ Due target ⟨s, below⟩ := by
  rcases due with reached | ⟨other, listed, asks⟩
  · exact .inr (.inl reached)
  · rcases List.mem_cons.1 listed with rfl | listed
    · exact .inl asks
    · exact .inr (.inr ⟨other, listed, asks⟩)

/-- With an empty stack, what is due is reached. -/
theorem due_nil {s : State} {target : Entity} : Due target ⟨s, []⟩ ↔ s.isReached target := by
  simp [Due]

theorem Due.move {target : Entity} (due : Due target m) (h : Move scene m m') : Due target m' := by
  cases h with
  | reached known =>
    rcases due_cons due with rfl | due
    · exact .inl known
    · exact due
  | owner new missing => exact due_of_below due
  | @visit s s' source e steps below new free visited =>
    -- The entity asked for on top is now reached; what is due below is due as before.
    rcases due_cons due with rfl | reached | asked
    · exact .inl ((State.isReached_visit visited).2 (.inl rfl))
    · exact .inl ((State.isReached_visit visited).2 (.inr reached))
    · exact due_of_below (.inr asked)
  | finish =>
    rcases due_cons due with asks | due
    · cases asks
    · exact due
  | skip idle =>
    rcases due_cons due with asks | due
    · -- A plain step always asks for something, so the one skipped was not for the target.
      rcases List.mem_cons.1 asks with rfl | asks
      · cases idle
      · exact due_of_top asks
    · exact due_of_below due
  | take asked =>
    rcases due_cons due with asks | due
    · rcases List.mem_cons.1 asks with rfl | asks
      · cases asked
        exact due_of_top rfl
      · exact due_of_below (due_of_top asks)
    · exact due_of_below (due_of_below due)

theorem Due.moves {target : Entity} (due : Due target m)
    (moves : ReflTransGen (Move scene) m m') : Due target m' :=
  keeps (fun _ _ move due => due.move move) moves due

/-- When nothing is left to do, all that is due is reached. -/
theorem Due.reached_of_done {target : Entity} (due : Due target m) (h : Stop scene m outcome)
    (ok : outcome.verdict = .ok ()) : outcome.state.isReached target := by
  cases h with
  | done => exact due_nil.1 due
  | failed => cases ok

/-! ## What the stack asks for -/

/-- Whatever the stack asks for has the property, in the state of the machine. -/
def AsksOnly (Q : State → Entity → Prop) (m : Machine) : Prop :=
  ∀ frame ∈ m.stack, ∀ target, frame.Asks target → Q m.state target

/-- A move asks for the owner of what was asked for, for a method that is overridden, or for the
steps of a visit. A property that passes on to these stays one of all that the stack asks for. -/
theorem AsksOnly.move {Q : State → Entity → Prop} (h : AsksOnly Q m) (move : Move scene m m')
    (owner : ∀ e above, Q m.state e → scene.program.owner? e = some above → Q m.state above)
    (overridden : ∀ e method steps below target,
      m.stack = .expanding e (.markOverridden method :: steps) :: below →
      m.state.overriddenTarget? scene.program method = some target → Q m.state target)
    (visit : ∀ s' source e steps, m.state.visit scene source e = (.ok steps, s') → Q m.state e →
      (∀ target, .mark target ∈ steps → Q s' target) ∧ ∀ x, Q m.state x → Q s' x) :
    AsksOnly Q m' := by
  cases move with
  | reached known => exact (List.forall_mem_cons.1 h).2
  | @owner s source e above below new missing =>
    have owns := (State.unreachedOwner?_eq_some.1 missing).1
    refine List.forall_mem_cons.2 ⟨fun target asks => ?_, h⟩
    cases asks
    exact owner e above ((List.forall_mem_cons.1 h).1 e rfl) owns
  | @visit s s' source e steps below new free visited =>
    obtain ⟨top, below⟩ := List.forall_mem_cons.1 h
    obtain ⟨asked, kept⟩ := visit s' source e steps visited (top e rfl)
    refine List.forall_mem_cons.2 ⟨asked, fun frame listed target asks => ?_⟩
    exact kept target (below frame listed target asks)
  | finish => exact (List.forall_mem_cons.1 h).2
  | skip idle =>
    obtain ⟨top, below⟩ := List.forall_mem_cons.1 h
    refine List.forall_mem_cons.2 ⟨fun target asks => ?_, below⟩
    exact top target (List.mem_cons_of_mem _ asks)
  | @take s e target step steps below asked =>
    obtain ⟨top, rest⟩ := List.forall_mem_cons.1 h
    refine List.forall_mem_cons.2 ⟨fun target' asks => ?_,
      List.forall_mem_cons.2 ⟨fun target' asks => ?_, rest⟩⟩
    · -- A plain step was on the stack before; a conditional one has its target from the state.
      cases asks
      cases step with
      | mark direct =>
        cases asked
        exact top target List.mem_cons_self
      | markOverridden method => exact overridden e method steps below target rfl asked
    · exact top target' (List.mem_cons_of_mem _ asks)

/-! ## Conditional steps -/

/-- The frame has a step towards the method that `method` overrides. -/
def Frame.AsksOverridden (method : MethodId) : Frame → Prop
  | .pending _ _ => False
  | .expanding _ steps => .markOverridden method ∈ steps

/-- The steps towards overridden methods are there on behalf of reached methods. -/
def Founded (m : Machine) : Prop :=
  ∀ frame ∈ m.stack, ∀ method, frame.AsksOverridden method → m.state.isReached (.method method)

theorem Founded.move (h : Founded m) (move : Move scene m m') : Founded m' := by
  cases move with
  | reached known => exact (List.forall_mem_cons.1 h).2
  | owner new missing => exact List.forall_mem_cons.2 ⟨fun method asks => asks.elim, h⟩
  | @visit s s' source e steps below new free visited =>
    refine List.forall_mem_cons.2 ⟨fun method asks => ?_, fun frame listed method asks => ?_⟩
    · obtain ⟨x, applied, rfl, -⟩ := State.visit_eq_ok visited
      have same := Scene.eq_method_of_markOverridden applied asks
      exact (State.isReached_visit visited).2 (.inl same.symm)
    · have before := (List.forall_mem_cons.1 h).2 frame listed method asks
      exact (State.isReached_visit visited).2 (.inr before)
  | finish => exact (List.forall_mem_cons.1 h).2
  | skip idle =>
    obtain ⟨top, below⟩ := List.forall_mem_cons.1 h
    refine List.forall_mem_cons.2 ⟨fun method asks => ?_, below⟩
    exact top method (List.mem_cons_of_mem _ asks)
  | take asked =>
    obtain ⟨top, below⟩ := List.forall_mem_cons.1 h
    refine List.forall_mem_cons.2 ⟨fun method asks => asks.elim,
      List.forall_mem_cons.2 ⟨fun method asks => ?_, below⟩⟩
    exact top method (List.mem_cons_of_mem _ asks)

theorem founded_start (s : State) (e : Entity) : Founded (start s e) :=
  List.forall_mem_singleton.2 fun _ asks => asks.elim

theorem founded_of_moves {s : State} {e : Entity}
    (moves : ReflTransGen (Move scene) (start s e) m) : Founded m :=
  keeps (fun _ _ move founded => founded.move move) moves (founded_start s e)

end Liveset.Worklist
