import Liveset.Proofs.Reach.Strategies
import Liveset.Reach.Session

/-!
# Sequences of calls

A session is driven by calls. `Session.history` has the verdict and the state after each of several
calls, failed ones included: a session goes on after a failure with the state that it left.

Every call marks entities one after the other up to the first failure. `Session.markings` lists all
these markings by the state they start from and the entity they ask for, and `Trail` says how they
follow each other. What one marking keeps, a sequence of calls keeps (`Trail.keeps`). Calls that
succeed take every marking to its end, so they keep what each move of the loop keeps
(`Session.Succeeds.keeps`).

The main result is that the history of a session does not depend on its strategy, and that every
marking ends. It ends because a `Loader` has finitely many class descriptions; this holds of the
loader of every session, here and wherever a result speaks of calls.
-/

set_option autoImplicit false

namespace Liveset

/-! ## Calls -/

/-- A call that drives a session. -/
inductive Call where
  | mark (entity : Option Entity)
  | markRoots (roots : List Entity)
  | walkProgramAttributes
deriving DecidableEq, Inhabited, Repr

/-- The entities that a call is given. -/
def Call.entities : Call → List Entity
  | .mark entity => entity.toList
  | .markRoots roots => roots
  | .walkProgramAttributes => []

/-- What a call does to the session before it marks an entity: lists of roots are counted. -/
def Call.prepare : Call → Session → Entity → Session
  | .markRoots _ => Session.countRoot
  | _ => fun session _ => session

namespace Session

/-- Perform a call. -/
def perform (session : Session) : Call → Except SupportError Unit × Session
  | .mark entity => session.markOption entity
  | .markRoots roots => session.markRoots roots
  | .walkProgramAttributes => session.walkProgramAttributes

/-- The verdict and the state after each of several calls. -/
def history (session : Session) : List Call → List (Except SupportError Unit × State)
  | [] => []
  | call :: rest =>
    let (verdict, session) := session.perform call
    (verdict, session.state) :: session.history rest

/-- The session after several calls. -/
def after (session : Session) : List Call → Session
  | [] => session
  | call :: rest => (session.perform call).2.after rest

/-- None of the calls fails. -/
def Succeeds (session : Session) (calls : List Call) : Prop :=
  ∀ entry ∈ session.history calls, entry.1 = .ok ()

/-- The entities that a call marks, unless it fails on the way. -/
def targets (session : Session) : Call → List Entity
  | .walkProgramAttributes => session.programAttributes
  | call => call.entities

/-- The markings of a list of entities, each by the state it starts from and its entity. -/
def markingsEach (prepare : Session → Entity → Session) (session : Session) :
    List Entity → List (State × Entity)
  | [] => []
  | entity :: rest =>
    ((prepare session entity).state, entity) ::
      match (prepare session entity).mark entity with
      | (.error _, _) => []
      | (.ok (), session) => session.markingsEach prepare rest

/-- The markings of several calls. -/
def markings (session : Session) : List Call → List (State × Entity)
  | [] => []
  | call :: rest =>
    session.markingsEach call.prepare (session.targets call) ++
      (session.perform call).2.markings rest

/-! ## Calls as lists of markings -/

theorem perform_eq_markEach (session : Session) (call : Call) :
    session.perform call = session.markEach call.prepare (session.targets call) := by
  cases call with
  | mark entity =>
    cases entity with
    | none => rfl
    | some e =>
      -- A list of one entity: its verdict is the verdict of the list.
      simp only [perform, markOption, targets, Call.entities, Option.toList, markEach, Call.prepare]
      rcases session.mark e with ⟨error | _, next⟩ <;> rfl
  | markRoots roots => rfl
  | walkProgramAttributes => rfl

/-- The state of the session before a call marks an entity: as it was, or with one root more. -/
theorem prepare_cases (session : Session) (call : Call) (e : Entity) :
    ∃ s, (s = session.state ∨ s = { session.state with roots := session.state.roots + 1 }) ∧
      call.prepare session e = { session with state := s } := by
  cases call with
  | markRoots roots =>
    simp only [Call.prepare, countRoot]
    split
    · exact ⟨_, .inl rfl, rfl⟩
    · exact ⟨_, .inr rfl, rfl⟩
  | _ => exact ⟨_, .inl rfl, rfl⟩

/-- A list of markings fails with its first marking, or goes on from the state that it left. -/
theorem markEach_cases (session : Session) (call : Call) (e : Entity) (rest : List Entity) :
    ∃ s, (s = session.state ∨ s = { session.state with roots := session.state.roots + 1 }) ∧
      let outcome := session.strategy.mark session.scene s e
      let next := { session with state := outcome.state }
      (∃ error, outcome.verdict = .error error ∧
        session.markEach call.prepare (e :: rest) = (.error error, next) ∧
        session.markingsEach call.prepare (e :: rest) = [(s, e)]) ∨
      (outcome.verdict = .ok () ∧
        session.markEach call.prepare (e :: rest) = next.markEach call.prepare rest ∧
        session.markingsEach call.prepare (e :: rest) =
          (s, e) :: next.markingsEach call.prepare rest) := by
  obtain ⟨s, counted, prepared⟩ := session.prepare_cases call e
  refine ⟨s, counted, ?_⟩
  simp only [markEach, markingsEach, prepared, mark, resume]
  rcases session.strategy.mark session.scene s e with ⟨error | _, s'⟩
  · exact .inl ⟨error, rfl, rfl, rfl⟩
  · exact .inr ⟨rfl, rfl, rfl⟩

/-- A call changes nothing but the state. -/
theorem markEach_eq (session : Session) (call : Call) (entities : List Entity) :
    (session.markEach call.prepare entities).2 =
      { session with state := (session.markEach call.prepare entities).2.state } := by
  induction entities generalizing session with
  | nil => rfl
  | cons e rest ih =>
    obtain ⟨s, -, ⟨error, -, failed, -⟩ | ⟨-, done, -⟩⟩ := session.markEach_cases call e rest
    · rw [failed]
    · rw [done]
      exact ih _

theorem perform_eq (session : Session) (call : Call) :
    (session.perform call).2 = { session with state := (session.perform call).2.state } := by
  rw [perform_eq_markEach]
  exact session.markEach_eq call _

theorem targets_perform (session : Session) (call other : Call) :
    (session.perform call).2.targets other = session.targets other := by
  rw [perform_eq]
  cases other <;> rfl

end Session

/-! ## Trails -/

/-- Whatever the strategy, a marking ends as the loop does. -/
theorem Strategy.mark?_eq (strategy : Strategy) (scene : Scene) (s : State) (e : Entity) :
    Worklist.mark? scene s e = some (strategy.mark scene s e) := by
  obtain ⟨outcome, looped, nested⟩ := exists_outcome scene s e
  cases strategy <;> simp [mark, looped, nested]

theorem Strategy.exists_moves (strategy : Strategy) (scene : Scene) (s : State) (e : Entity) :
    ∃ last, Relation.ReflTransGen (Worklist.Move scene) (Worklist.start s e) last ∧
      Worklist.Stop scene last (strategy.mark scene s e) :=
  Worklist.run_eq_some_iff.1 (strategy.mark?_eq scene s e)

/-- A marking that succeeds goes on until nothing is left to do. -/
theorem Strategy.moves_of_ok (strategy : Strategy) {scene : Scene} {s : State} {e : Entity}
    (ok : (strategy.mark scene s e).verdict = .ok ()) :
    Relation.ReflTransGen (Worklist.Move scene) (Worklist.start s e)
      ⟨(strategy.mark scene s e).state, []⟩ := by
  obtain ⟨last, moves, stop⟩ := strategy.exists_moves scene s e
  generalize strategy.mark scene s e = outcome at stop ok ⊢
  cases stop with
  | done => exact moves
  | failed => cases ok

/-- What visits keep, a marking keeps. -/
theorem Strategy.preserves_mark (strategy : Strategy) {scene : Scene} {P : State → Prop}
    (visit : KeptByVisits scene P) {s : State} (e : Entity) (start : P s) :
    P (strategy.mark scene s e).state := by
  obtain ⟨last, moves, stop⟩ := strategy.exists_moves scene s e
  exact stop.preserves visit (Worklist.preserves_of_moves visit moves start)

/-- Markings and counts of roots lead from one state to another. The list has the state and the
entity of each marking. -/
inductive Trail (strategy : Strategy) (scene : Scene) : State → List (State × Entity) → State → Prop
  where
  | nil {s : State} : Trail strategy scene s [] s
  | count {s s' : State} {log : List (State × Entity)}
      (rest : Trail strategy scene { s with roots := s.roots + 1 } log s') :
      Trail strategy scene s log s'
  | mark {s s' : State} {e : Entity} {log : List (State × Entity)}
      (rest : Trail strategy scene (strategy.mark scene s e).state log s') :
      Trail strategy scene s ((s, e) :: log) s'

namespace Trail

variable {strategy : Strategy} {scene : Scene} {s s' s'' : State} {log log' : List (State × Entity)}

theorem append (h : Trail strategy scene s log s') (h' : Trail strategy scene s' log' s'') :
    Trail strategy scene s (log ++ log') s'' := by
  induction h with
  | nil => exact h'
  | count _ ih => exact (ih h').count
  | mark _ ih => exact (ih h').mark

/-- What counting and each of the markings keep holds before each marking and at the end. -/
theorem keeps {P : State → Prop} (count : ∀ s, P s → P { s with roots := s.roots + 1 })
    (h : Trail strategy scene s log s')
    (mark : ∀ s e, (s, e) ∈ log → P s → P (strategy.mark scene s e).state) (start : P s) :
    P s' ∧ ∀ s e, (s, e) ∈ log → P s := by
  induction h with
  | nil => exact ⟨start, by simp⟩
  | count _ ih => exact ih mark (count _ start)
  | mark _ ih =>
    obtain ⟨final, before⟩ := ih (fun s e listed => mark s e (List.mem_cons_of_mem _ listed))
      (mark _ _ List.mem_cons_self start)
    refine ⟨final, fun s e listed => ?_⟩
    rcases List.mem_cons.1 listed with same | listed
    · cases same
      exact start
    · exact before s e listed

theorem grows (h : Trail strategy scene s log s') : s.Grows s' :=
  (h.keeps (P := fun s' => s.Grows s')
    (fun _ grown => ⟨grown.reached, grown.order, grown.repository⟩)
    (fun _ e _ grown => strategy.preserves_mark (keptByVisits_grows scene s) e grown) (.refl s)).1

/-- Nothing that a marking found is lost at the end. -/
theorem grows_of_mem (h : Trail strategy scene s log s') {t : State} {e : Entity}
    (listed : (t, e) ∈ log) : (strategy.mark scene t e).state.Grows s' := by
  induction h with
  | nil => cases listed
  | count _ ih => exact ih listed
  | mark rest ih =>
    rcases List.mem_cons.1 listed with same | listed
    · cases same
      exact rest.grows
    · exact ih listed

end Trail

namespace Session

theorem trail_markEach (session : Session) (call : Call) (entities : List Entity) :
    Trail session.strategy session.scene session.state (session.markingsEach call.prepare entities)
      (session.markEach call.prepare entities).2.state := by
  induction entities generalizing session with
  | nil => exact .nil
  | cons e rest ih =>
    obtain ⟨s, counted, ⟨error, -, failed, log⟩ | ⟨-, done, log⟩⟩ :=
      session.markEach_cases call e rest
    · rw [failed, log]
      rcases counted with rfl | rfl
      · exact Trail.nil.mark
      · exact Trail.nil.mark.count
    · rw [done, log]
      have others := ih { session with state := (session.strategy.mark session.scene s e).state }
      rcases counted with rfl | rfl
      · exact others.mark
      · exact others.mark.count

/-- The markings of some calls lead from the state before them to the state after them. -/
theorem trail_after (session : Session) (calls : List Call) :
    Trail session.strategy session.scene session.state (session.markings calls)
      (session.after calls).state := by
  induction calls generalizing session with
  | nil => exact .nil
  | cons call rest ih =>
    -- A call changes nothing but the state, so the other calls have the same scene and strategy.
    have first := session.trail_markEach call (session.targets call)
    rw [← perform_eq_markEach] at first
    have others := ih (session.perform call).2
    have scene_eq : (session.perform call).2.scene = session.scene := by rw [perform_eq]
    have strategy_eq : (session.perform call).2.strategy = session.strategy := by rw [perform_eq]
    rw [scene_eq, strategy_eq] at others
    exact first.append others

theorem after_append (session : Session) (calls more : List Call) :
    session.after (calls ++ more) = (session.after calls).after more := by
  induction calls generalizing session with
  | nil => rfl
  | cons call rest ih => exact ih (session.perform call).2

/-- Nothing that was found is lost by further calls. -/
theorem grows_after_append (session : Session) (calls more : List Call) :
    (session.after calls).state.Grows (session.after (calls ++ more)).state := by
  rw [after_append]
  exact ((session.after calls).trail_after more).grows

theorem mem_of_mem_markingsEach {session : Session} {call : Call} {entities : List Entity}
    {s : State} {e : Entity} (listed : (s, e) ∈ session.markingsEach call.prepare entities) :
    e ∈ entities := by
  induction entities generalizing session with
  | nil => cases listed
  | cons first rest ih =>
    obtain ⟨t, -, ⟨error, -, -, log⟩ | ⟨-, -, log⟩⟩ := session.markEach_cases call first rest
    · rw [log] at listed
      cases List.mem_singleton.1 listed
      exact List.mem_cons_self
    · rw [log] at listed
      rcases List.mem_cons.1 listed with same | listed
      · cases same
        exact List.mem_cons_self
      · exact List.mem_cons_of_mem _ (ih listed)

/-- What is marked is a target of one of the calls. -/
theorem mem_targets_of_mem_markings {session : Session} {calls : List Call} {s : State} {e : Entity}
    (listed : (s, e) ∈ session.markings calls) : ∃ call ∈ calls, e ∈ session.targets call := by
  induction calls generalizing session with
  | nil => cases listed
  | cons call rest ih =>
    rcases List.mem_append.1 listed with first | others
    · exact ⟨call, List.mem_cons_self, mem_of_mem_markingsEach first⟩
    · obtain ⟨other, member, target⟩ := ih others
      rw [targets_perform] at target
      exact ⟨other, List.mem_cons_of_mem _ member, target⟩

/-! ## Machines on the way -/

/-- The loop passes through the machine while it performs the calls. -/
def PassesThrough (session : Session) (calls : List Call) (m : Worklist.Machine) : Prop :=
  ∃ s e, (s, e) ∈ session.markings calls ∧
    Relation.ReflTransGen (Worklist.Move session.scene) (Worklist.start s e) m

/-- What visits keep holds in every machine on the way, and at the end. -/
theorem preserves_after {session : Session} {P : State → Prop}
    (visit : KeptByVisits session.scene P) (count : ∀ s, P s → P { s with roots := s.roots + 1 })
    (start : P session.state) (calls : List Call) :
    P (session.after calls).state ∧ ∀ m, session.PassesThrough calls m → P m.state := by
  obtain ⟨final, before⟩ := (session.trail_after calls).keeps count
    (fun s e _ kept => session.strategy.preserves_mark visit e kept) start
  refine ⟨final, ?_⟩
  rintro m ⟨s, e, marked, moves⟩
  exact Worklist.preserves_of_moves visit moves (before s e marked)

/-- From a machine on the way the loop goes on to the end of its marking. -/
theorem PassesThrough.exists_last {session : Session} {calls : List Call} {m : Worklist.Machine}
    (h : session.PassesThrough calls m) :
    ∃ s e last, (s, e) ∈ session.markings calls ∧
      Relation.ReflTransGen (Worklist.Move session.scene) m last ∧
      Worklist.Stop session.scene last (session.strategy.mark session.scene s e) := by
  obtain ⟨s, e, marked, moves⟩ := h
  obtain ⟨last, all, stop⟩ := session.strategy.exists_moves session.scene s e
  -- How the loop ends is settled at its start, so the rest of the way ends as the whole way does.
  have ended := Worklist.run_eq_some_iff.2 ⟨last, all, stop⟩
  rw [Worklist.run_eq_of_moves moves] at ended
  obtain ⟨last, rest, stop⟩ := Worklist.run_eq_some_iff.1 ended
  exact ⟨s, e, last, marked, rest, stop⟩

/-- Nothing that was found on the way is lost at the end. -/
theorem PassesThrough.grows {session : Session} {calls : List Call} {m : Worklist.Machine}
    (h : session.PassesThrough calls m) : m.state.Grows (session.after calls).state := by
  obtain ⟨s, e, last, marked, rest, stop⟩ := h.exists_last
  have ended := (Worklist.grows_of_moves rest).trans stop.grows
  exact ended.trans ((session.trail_after calls).grows_of_mem marked)

/-! ## Calls that succeed -/

theorem succeeds_cons {session : Session} {call : Call} {rest : List Call} :
    session.Succeeds (call :: rest) ↔
      (session.perform call).1 = .ok () ∧ (session.perform call).2.Succeeds rest := by
  simp [Succeeds, history]

/-- A list of markings that succeeds has a marking for each entity, and all of them succeed. -/
theorem markingsEach_of_ok {session : Session} {call : Call} {entities : List Entity}
    (ok : (session.markEach call.prepare entities).1 = .ok ()) :
    (∀ e ∈ entities, ∃ s, (s, e) ∈ session.markingsEach call.prepare entities) ∧
      ∀ s e, (s, e) ∈ session.markingsEach call.prepare entities →
        (session.strategy.mark session.scene s e).verdict = .ok () := by
  induction entities generalizing session with
  | nil => exact ⟨by simp, by simp [markingsEach]⟩
  | cons first rest ih =>
    obtain ⟨t, -, ⟨error, -, failed, -⟩ | ⟨verdict, done, log⟩⟩ :=
      session.markEach_cases call first rest
    · rw [failed] at ok
      cases ok
    · rw [done] at ok
      obtain ⟨found, succeeded⟩ := ih ok
      rw [log]
      refine ⟨fun e target => ?_, fun s e listed => ?_⟩
      · rcases List.mem_cons.1 target with rfl | target
        · exact ⟨t, List.mem_cons_self⟩
        · obtain ⟨s, listed⟩ := found e target
          exact ⟨s, List.mem_cons_of_mem _ listed⟩
      · rcases List.mem_cons.1 listed with same | listed
        · cases same
          exact verdict
        · exact succeeded s e listed

/-- Calls that succeed have a marking for each of their targets, and all of them succeed. -/
theorem Succeeds.markings {session : Session} {calls : List Call} (h : session.Succeeds calls) :
    (∀ call ∈ calls, ∀ e ∈ session.targets call, ∃ s, (s, e) ∈ session.markings calls) ∧
      ∀ s e, (s, e) ∈ session.markings calls →
        (session.strategy.mark session.scene s e).verdict = .ok () := by
  induction calls generalizing session with
  | nil => exact ⟨by simp, by simp [Session.markings]⟩
  | cons first rest ih =>
    obtain ⟨ok, others⟩ := succeeds_cons.1 h
    obtain ⟨foundLater, succeededLater⟩ := ih others
    rw [perform_eq_markEach] at ok
    obtain ⟨foundNow, succeededNow⟩ := markingsEach_of_ok ok
    refine ⟨fun call member e target => ?_, fun s e listed => ?_⟩
    · rcases List.mem_cons.1 member with rfl | member
      · obtain ⟨s, listed⟩ := foundNow e target
        exact ⟨s, List.mem_append_left _ listed⟩
      · rw [← targets_perform session first] at target
        obtain ⟨s, listed⟩ := foundLater call member e target
        exact ⟨s, List.mem_append_right _ listed⟩
    · rcases List.mem_append.1 listed with now | later
      · exact succeededNow s e now
      · have verdict := succeededLater s e later
        rw [perform_eq] at verdict
        exact verdict

/-- Calls whose markings all succeed do so themselves. -/
theorem succeeds_of_markings {session : Session} {calls : List Call}
    (ok : ∀ s e, (s, e) ∈ session.markings calls →
      (session.strategy.mark session.scene s e).verdict = .ok ()) : session.Succeeds calls := by
  have each (session : Session) (call : Call) (entities : List Entity)
      (ok : ∀ s e, (s, e) ∈ session.markingsEach call.prepare entities →
        (session.strategy.mark session.scene s e).verdict = .ok ()) :
      (session.markEach call.prepare entities).1 = .ok () := by
    induction entities generalizing session with
    | nil => rfl
    | cons first rest ih =>
      obtain ⟨s, -, ⟨error, failed, -, log⟩ | ⟨-, done, log⟩⟩ :=
        session.markEach_cases call first rest
      · rw [ok s first (log ▸ List.mem_cons_self)] at failed
        cases failed
      · rw [done]
        exact ih _ fun s e listed => ok s e (log ▸ List.mem_cons_of_mem _ listed)
  induction calls generalizing session with
  | nil => simp [Succeeds, history]
  | cons call rest ih =>
    rw [succeeds_cons, perform_eq_markEach]
    refine ⟨each session call _ fun s e listed => ok s e (List.mem_append_left _ listed), ?_⟩
    rw [← perform_eq_markEach]
    apply ih
    intro s e listed
    have verdict := ok s e (List.mem_append_right _ listed)
    rw [perform_eq]
    exact verdict

/-- What moves keep, once a marking has begun, holds in every machine on the way of calls that
succeed, and at the end with nothing on the stack. -/
theorem Succeeds.keeps {session : Session} {calls : List Call} {P : Worklist.Machine → Prop}
    (h : session.Succeeds calls)
    (move : ∀ {m m'}, P m → Worklist.Move session.scene m m' → P m')
    (begin : ∀ s e, (∃ call ∈ calls, e ∈ session.targets call) → P ⟨s, []⟩ →
      P (Worklist.start s e))
    (count : ∀ s, P ⟨s, []⟩ → P ⟨{ s with roots := s.roots + 1 }, []⟩)
    (start : P ⟨session.state, []⟩) :
    P ⟨(session.after calls).state, []⟩ ∧ ∀ m, session.PassesThrough calls m → P m := by
  have onTheWay {s e} (marked : (s, e) ∈ session.markings calls) (kept : P ⟨s, []⟩) {m}
      (moves : Relation.ReflTransGen (Worklist.Move session.scene) (Worklist.start s e) m) : P m :=
    Worklist.keeps (fun _ _ next kept => move kept next) moves
      (begin s e (mem_targets_of_mem_markings marked) kept)
  obtain ⟨final, before⟩ := (session.trail_after calls).keeps (P := fun s => P ⟨s, []⟩) count
    (fun s e marked kept =>
      onTheWay marked kept (session.strategy.moves_of_ok (h.markings.2 s e marked))) start
  refine ⟨final, ?_⟩
  rintro m ⟨s, e, marked, moves⟩
  exact onTheWay marked (before s e marked) moves

/-- What is due on the way is reached at the end of calls that succeed. -/
theorem PassesThrough.isReached_of_due {session : Session} {calls : List Call}
    {m : Worklist.Machine} (h : session.PassesThrough calls m) (succeeds : session.Succeeds calls)
    {target : Entity} (due : Worklist.Due target m) : (session.after calls).isReached target := by
  obtain ⟨s, e, last, marked, moves, stop⟩ := h.exists_last
  have reached := (due.moves moves).reached_of_done stop (succeeds.markings.2 s e marked)
  exact ((session.trail_after calls).grows_of_mem marked).reached reached

/-- Calls that succeed reach all their targets. -/
theorem Succeeds.isReached_target {session : Session} {calls : List Call}
    (h : session.Succeeds calls) {call : Call} (listed : call ∈ calls) {e : Entity}
    (target : e ∈ session.targets call) : (session.after calls).isReached e := by
  obtain ⟨s, marked⟩ := h.markings.1 call listed e target
  have through : session.PassesThrough calls (Worklist.start s e) := ⟨s, e, marked, .refl⟩
  exact through.isReached_of_due h (Worklist.due_of_top rfl)

/-! ## The strategy does not matter -/

variable {session : Session} {strategy : Strategy}

theorem mark_strategy (e : Entity) :
    { session with strategy }.mark e =
      ((session.mark e).1, { (session.mark e).2 with strategy }) := by
  have same : strategy.mark session.scene session.state e =
      session.strategy.mark session.scene session.state e :=
    Option.some.inj ((strategy.mark?_eq _ _ _).symm.trans (session.strategy.mark?_eq _ _ _))
  simp only [mark, resume, same]

theorem prepare_strategy (call : Call) (e : Entity) :
    call.prepare { session with strategy } e = { call.prepare session e with strategy } := by
  cases call with
  | markRoots roots =>
    by_cases known : session.state.isReached e <;>
      simp [Call.prepare, countRoot, isReached, known]
  | _ => rfl

theorem markEach_strategy (call : Call) (entities : List Entity) :
    { session with strategy }.markEach call.prepare entities =
      ((session.markEach call.prepare entities).1,
        { (session.markEach call.prepare entities).2 with strategy }) := by
  induction entities generalizing session with
  | nil => rfl
  | cons e rest ih =>
    simp only [markEach, prepare_strategy, mark_strategy]
    rcases (call.prepare session e).mark e with ⟨error | _, next⟩
    · rfl
    · exact ih

theorem perform_strategy (call : Call) :
    { session with strategy }.perform call =
      ((session.perform call).1, { (session.perform call).2 with strategy }) := by
  have same : { session with strategy }.targets call = session.targets call := by
    cases call <;> rfl
  rw [perform_eq_markEach, perform_eq_markEach, same, markEach_strategy]

theorem history_strategy (session : Session) (strategy : Strategy) (calls : List Call) :
    { session with strategy }.history calls = session.history calls := by
  induction calls generalizing session with
  | nil => rfl
  | cons call rest ih =>
    simp only [history, perform_strategy]
    rw [ih]

end Session

/-- Both strategies are one pass: from every state every marking ends under both of them, in the
same verdict and the same state, and two fresh sessions that differ in nothing but their strategy
have the same history, whatever calls drive them. -/
theorem strategies_agree (scene : Scene) :
    (∀ (s : State) (e : Entity), ∃ outcome, Worklist.mark? scene s e = some outcome ∧
      Recursive.mark? scene s e = some outcome) ∧
    ∀ (loader : Loader) (recordRetention : Bool) (calls : List Call),
      (Session.fresh scene .worklist loader recordRetention).history calls =
        (Session.fresh scene .recursive loader recordRetention).history calls := by
  refine ⟨exists_outcome scene, fun loader recordRetention calls => ?_⟩
  exact Session.history_strategy (.fresh scene .recursive loader recordRetention) .worklist calls

end Liveset
