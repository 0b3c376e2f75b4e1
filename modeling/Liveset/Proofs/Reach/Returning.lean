import Liveset.Proofs.Program.Instances
import Liveset.Proofs.Reach.Calls
import Liveset.Reach.Returning

/-!
# Calls that return

A call does not return if one of the turns that it takes does not. The watched loop gives the
outcome of the loop where all turns return and none elsewhere (`Worklist.watch_eq_some_iff`). So
calls return exactly if no machine that they pass through is stuck, and if the attributes of the
program can be chosen before they are walked (`Session.returns_iff`); what they return is what they
are said to do (`Session.perform?_eq_some_iff`).

Only endless chains of instances keep a turn from returning, so in a program without them every call
returns (`Session.returns_of_acyclic`).
-/

set_option autoImplicit false

namespace Liveset

open Relation (ReflTransGen TransGen)

/-! ## The loop -/

namespace Worklist

variable {scene : Scene} {m m' : Machine} {outcome : Outcome}

/-- All turns that the loop takes from here return. -/
def NeverStuck (scene : Scene) (m : Machine) : Prop :=
  ∀ m', ReflTransGen (Move scene) m m' → m'.isStuck scene = false

/-- A move goes on to one machine only. -/
theorem Move.neverStuck (h : Move scene m m') (free : m.isStuck scene = false)
    (later : NeverStuck scene m') : NeverStuck scene m := by
  intro last moves
  rcases moves.cases_head with rfl | ⟨next, first, rest⟩
  · exact free
  · cases h.turn_eq.symm.trans first.turn_eq
    exact later last rest

/-- Where the loop is over there are no further turns. -/
theorem Stop.neverStuck (h : Stop scene m outcome) (free : m.isStuck scene = false) :
    NeverStuck scene m := by
  intro last moves
  rcases moves.cases_head with rfl | ⟨next, first, -⟩
  · exact free
  · cases h.turn_eq.symm.trans first.turn_eq

/-- Watching gives the outcome of the loop, if all its turns return. -/
theorem watch_eq_some_iff :
    m.watch scene = some outcome ↔ m.run scene = some outcome ∧ NeverStuck scene m := by
  constructor
  · -- What holds of every result is shown turn by turn: each is that of the machine after it.
    refine Machine.watch.partial_correctness scene
      (fun m outcome => m.run scene = some outcome ∧ NeverStuck scene m)
      (fun loop right m outcome ended => ?_) m outcome
    split at ended
    · cases ended
    · rename_i goesOn
      have free : m.isStuck scene = false := Bool.eq_false_iff.2 goesOn
      rcases move_or_stop scene m with ⟨m', move⟩ | ⟨outcome', stop⟩
      · rw [move.turn_eq] at ended
        obtain ⟨run, later⟩ := right m' outcome ended
        exact ⟨move.run_eq.trans run, move.neverStuck free later⟩
      · rw [stop.turn_eq] at ended
        cases ended
        exact ⟨stop.run_eq, stop.neverStuck free⟩
  · rintro ⟨run, returns⟩
    -- The run has finitely many moves, and the induction is along them.
    obtain ⟨last, moves, stop⟩ := run_eq_some_iff.1 run
    clear run
    induction moves using ReflTransGen.head_induction_on with
    | refl => rw [Machine.watch, returns last .refl, if_neg Bool.false_ne_true, stop.turn_eq]
    | @head a c move _ ih =>
      rw [Machine.watch, returns a .refl, if_neg Bool.false_ne_true, move.turn_eq]
      exact ih fun m' later => returns m' (.head move later)

/-- Marking ends in every state, so watching a marking fails for want of a return only. -/
theorem isSome_watch_start_iff (scene : Scene) (s : State) (e : Entity) :
    ((start s e).watch scene).isSome ↔ NeverStuck scene (start s e) := by
  obtain ⟨outcome, looped, -⟩ := exists_outcome scene s e
  rw [Option.isSome_iff_exists]
  constructor
  · rintro ⟨outcome, watched⟩
    exact (watch_eq_some_iff.1 watched).2
  · intro returns
    exact ⟨outcome, watch_eq_some_iff.2 ⟨looped, returns⟩⟩

end Worklist

/-! ## Calls -/

namespace Session

variable {session : Session} {result : Except SupportError Unit × Session}

/-- Perform a call, if it returns. -/
def perform? (session : Session) : Call → Option (Except SupportError Unit × Session)
  | .mark entity => session.markOption? entity
  | .markRoots roots => session.markRoots? roots
  | .walkProgramAttributes => session.walkProgramAttributes?

/-- All of the calls return. -/
def Returns (session : Session) : List Call → Prop
  | [] => True
  | call :: rest => ∃ result, session.perform? call = some result ∧ result.2.Returns rest

/-- The questions that a call asks before its markings return. -/
def PreparationReturns (session : Session) (call : Call) : Prop :=
  call = .walkProgramAttributes →
    session.scene.program.attributesReturn session.scene.program.programAttributes

theorem markEach?_eq_some_iff (session : Session) (call : Call) (entities : List Entity) :
    session.markEach? call.prepare entities = some result ↔
      session.markEach call.prepare entities = result ∧
        ∀ s e, (s, e) ∈ session.markingsEach call.prepare entities →
          Worklist.NeverStuck session.scene (Worklist.start s e) := by
  induction entities generalizing session with
  | nil => simp [markEach?, markEach, markingsEach]
  | cons e rest ih =>
    obtain ⟨s, -, prepared⟩ := session.prepare_cases call e
    have watched := Worklist.isSome_watch_start_iff session.scene s e
    simp only [markEach?, markEach, markingsEach, prepared, mark, resume]
    cases first : (Worklist.start s e).watch session.scene with
    | none =>
      rw [first] at watched
      simp only [reduceCtorEq, false_iff, not_and]
      intro _ returns
      exact absurd (watched.2 (returns s e List.mem_cons_self)) Bool.false_ne_true
    | some outcome =>
      rw [first] at watched
      have returned : Worklist.NeverStuck session.scene (Worklist.start s e) := watched.1 rfl
      rcases session.strategy.mark session.scene s e with ⟨error | _, s'⟩
      · simp [returned]
      · rw [ih]
        refine and_congr_right fun _ => ⟨fun later s e listed => ?_, fun all s e listed => ?_⟩
        · rcases List.mem_cons.1 listed with same | listed
          · cases same
            exact returned
          · exact later s e listed
        · exact all s e (List.mem_cons_of_mem _ listed)

/-- A call that returns does what it is said to do, and it returns exactly if its questions do. -/
theorem perform?_eq_some_iff {call : Call} :
    session.perform? call = some result ↔
      session.perform call = result ∧ session.PreparationReturns call ∧
        ∀ s e, (s, e) ∈ session.markingsEach call.prepare (session.targets call) →
          Worklist.NeverStuck session.scene (Worklist.start s e) := by
  have each := @markEach?_eq_some_iff result session call (session.targets call)
  rw [← perform_eq_markEach] at each
  by_cases chosen : session.PreparationReturns call
  · have same : session.perform? call = session.markEach? call.prepare (session.targets call) := by
      cases call with
      | mark | markRoots => rfl
      | walkProgramAttributes => exact if_pos (chosen rfl)
    rw [same, each]
    simp only [chosen, true_and]
  · have stuck : session.perform? call = none := by
      cases call with
      | mark | markRoots => exact absurd nofun chosen
      | walkProgramAttributes => exact if_neg fun returns => chosen fun _ => returns
    simp [stuck, chosen]

/-- Calls return exactly if the attributes to be walked can be chosen and no machine on the way is
stuck. -/
theorem returns_iff (session : Session) (calls : List Call) :
    session.Returns calls ↔
      (∀ call ∈ calls, session.PreparationReturns call) ∧
        ∀ m, session.PassesThrough calls m → m.isStuck session.scene = false := by
  induction calls generalizing session with
  | nil => simp [Returns, PassesThrough, markings]
  | cons call rest ih =>
    -- The state changes from call to call, but the questions are about the scene, which stays.
    have scene_eq : (session.perform call).2.scene = session.scene := by rw [perform_eq]
    have others := ih (session.perform call).2
    simp only [PassesThrough, PreparationReturns, scene_eq] at others
    simp only [Returns, perform?_eq_some_iff, List.forall_mem_cons, PassesThrough, markings,
      List.mem_append]
    constructor
    · rintro ⟨result, ⟨rfl, chosen, now⟩, later⟩
      obtain ⟨chosenLater, freeLater⟩ := others.1 later
      refine ⟨⟨chosen, chosenLater⟩, ?_⟩
      rintro m ⟨s, e, first | second, moves⟩
      · exact now s e first m moves
      · exact freeLater m ⟨s, e, second, moves⟩
    · rintro ⟨⟨chosen, chosenLater⟩, free⟩
      refine ⟨_, ⟨rfl, chosen, fun s e first m moves => free m ⟨s, e, .inl first, moves⟩⟩, ?_⟩
      refine others.2 ⟨chosenLater, ?_⟩
      rintro m ⟨s, e, second, moves⟩
      exact free m ⟨s, e, .inr second, moves⟩

/-! ## The first marking of a call -/

variable {prepare : Session → Entity → Session} {e : Entity} {rest : List Entity}

/-- A marking that fails in its first turn ends the list. -/
theorem markEach?_of_stop {error : SupportError} {s' : State}
    (stop : Worklist.Stop (prepare session e).scene
      (Worklist.start (prepare session e).state e) (.failed error s'))
    (free : (Worklist.start (prepare session e).state e).isStuck
      (prepare session e).scene = false) :
    session.markEach? prepare (e :: rest) =
      some (.error error, { prepare session e with state := s' }) := by
  have watched := Worklist.watch_eq_some_iff.2 ⟨stop.run_eq, stop.neverStuck free⟩
  have ended : (prepare session e).strategy.mark (prepare session e).scene
      (prepare session e).state e = .failed error s' := by
    have looped := (prepare session e).strategy.mark?_eq (prepare session e).scene
      (prepare session e).state e
    exact Option.some.inj (looped.symm.trans stop.run_eq)
  simp only [markEach?, watched, mark, resume, ended, Outcome.failed]

/-- A marking whose first turn does not return keeps the list from returning. -/
theorem markEach?_of_isStuck
    (stuck : (Worklist.start (prepare session e).state e).isStuck (prepare session e).scene) :
    session.markEach? prepare (e :: rest) = none := by
  rw [markEach?, Worklist.Machine.watch, if_pos stuck]

end Session

/-! ## Programs without endless chains -/

section Finite

variable {p : Program} (finite : ∀ id, p.isEndless id = false)

include finite

theorem Program.attributesReturn_of_finite (attributes : List AttributeId) :
    p.attributesReturn attributes := by
  simp [attributesReturn, finite]

theorem Program.operandReturns_of_finite (instruction : Instruction) (next? : Option Instruction) :
    p.operandReturns instruction next? := by
  have initializer : p.initializerReturns = fun _ => true := by
    funext next
    rw [initializerReturns]
    split
    · rw [finite]
      rfl
    · rfl
  rw [operandReturns]
  split
  · rw [finite]
    rfl
  · simp [initializer]
  · rfl

theorem instructionsReturn_of_finite (support : Support) (locals : List TypeId)
    (instructions : List Instruction) : instructionsReturn support p locals instructions := by
  induction instructions with
  | nil => rfl
  | cons instruction rest ih => simp [instructionsReturn, p.operandReturns_of_finite finite, ih]

end Finite

theorem Scene.ruleReturns_of_finite {scene : Scene}
    (finite : ∀ id, scene.program.isEndless id = false) (e : Entity) : scene.ruleReturns e := by
  have attributes := Program.attributesReturn_of_finite finite
  have code (body : Option MethodBody) : codeReturns scene.support scene.program body := by
    cases body with
    | none => rfl
    | some body => exact instructionsReturn_of_finite finite _ _ _
  cases e with
  | type id =>
    rw [ruleReturns]
    cases scene.program.typeDefinition? id <;> simp [typeDefinitionReturns, attributes]
  | method id =>
    rw [ruleReturns]
    cases scene.program.methodDefinition? id <;> simp [methodDefinitionReturns, attributes, code]
  | _ => simp [ruleReturns, attributes]

theorem Worklist.isStuck_eq_false {scene : Scene}
    (finite : ∀ id, scene.program.isEndless id = false) (m : Machine) :
    m.isStuck scene = false := by
  have owner (e : Entity) : scene.program.ownerReturns e := by
    cases e <;> simp [Program.ownerReturns, finite]
  rw [Machine.isStuck.eq_def]
  split
  · simp [owner, Scene.ruleReturns_of_finite finite]
  · rfl

/-- In a program where no method instantiates itself, every call returns. -/
theorem Session.returns_of_acyclic (session : Session)
    (acyclic : ∀ m, ¬ TransGen session.scene.program.Instantiates m m) (calls : List Call) :
    session.Returns calls := by
  have finite := Program.isEndless_eq_false acyclic
  rw [returns_iff]
  exact ⟨fun _ _ _ => Program.attributesReturn_of_finite finite _,
    fun m _ => Worklist.isStuck_eq_false finite m⟩

end Liveset
