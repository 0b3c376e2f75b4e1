import Liveset.Proofs.Reach.Calls

/-!
# Evaluating sessions

The loop has no bound, so it cannot be evaluated as it stands. A bounded number of its turns can,
and if the loop is over by then its outcome is the one found (`run_of_within`). `Session.attempt`
performs calls in that way; where it gives a history and a session, these are the history and the
session of the calls under every strategy (`Session.attempt_eq_some`).
-/

set_option autoImplicit false

namespace Liveset

/-- Take turns until the loop is over, but no more than `bound`. -/
def Worklist.within (scene : Scene) : Nat → Machine → Option Outcome
  | 0, _ => none
  | bound + 1, machine =>
    match turn scene machine with
    | .next machine => within scene bound machine
    | .over outcome => some outcome

theorem Worklist.run_of_within {scene : Scene} {bound : Nat} {m : Machine} {outcome : Outcome}
    (h : within scene bound m = some outcome) : m.run scene = some outcome := by
  induction bound generalizing m with
  | zero => cases h
  | succ bound ih =>
    rw [within] at h
    rw [Machine.run]
    rcases taken : turn scene m with next | outcome'
    · rw [taken] at h
      exact ih h
    · rw [taken] at h
      exact h

theorem Strategy.mark_of_within {strategy : Strategy} {scene : Scene} {s : State} {e : Entity}
    {bound : Nat} {outcome : Outcome}
    (h : Worklist.within scene bound (Worklist.start s e) = some outcome) :
    strategy.mark scene s e = outcome := by
  have looped : Worklist.mark? scene s e = some outcome := Worklist.run_of_within h
  exact Option.some.inj ((strategy.mark?_eq scene s e).symm.trans looped)

namespace Session

/-- Mark entities one after the other, taking no more than `bound` turns for each. -/
def attemptEach (bound : Nat) (prepare : Session → Entity → Session) (session : Session) :
    List Entity → Option (Except SupportError Unit × Session)
  | [] => some (.ok (), session)
  | e :: rest =>
    let prepared := prepare session e
    match Worklist.within prepared.scene bound (Worklist.start prepared.state e) with
    | none => none
    | some ⟨.error error, s⟩ => some (.error error, { prepared with state := s })
    | some ⟨.ok (), s⟩ => { prepared with state := s }.attemptEach bound prepare rest

/-- Perform calls, taking no more than `bound` turns for each marking. -/
def attempt (bound : Nat) (session : Session) :
    List Call → Option (List (Except SupportError Unit × State) × Session)
  | [] => some ([], session)
  | call :: rest =>
    match session.attemptEach bound call.prepare (session.targets call) with
    | none => none
    | some (verdict, next) =>
      (next.attempt bound rest).map fun (entries, final) =>
        ((verdict, next.state) :: entries, final)

theorem attemptEach_eq_some {bound : Nat} {prepare : Session → Entity → Session}
    {session : Session} {entities : List Entity} {result : Except SupportError Unit × Session}
    (h : session.attemptEach bound prepare entities = some result) :
    session.markEach prepare entities = result := by
  induction entities generalizing session with
  | nil =>
    cases h
    rfl
  | cons e rest ih =>
    simp only [attemptEach] at h
    split at h
    · cases h
    · rename_i error s found
      cases h
      simp only [markEach, mark, Strategy.mark_of_within found, resume]
    · rename_i s found
      simp only [markEach, mark, Strategy.mark_of_within found, resume]
      exact ih h

/-- An attempt that ends has performed the calls. -/
theorem attempt_eq_some {bound : Nat} {session final : Session} {calls : List Call}
    {entries : List (Except SupportError Unit × State)}
    (h : session.attempt bound calls = some (entries, final)) :
    session.history calls = entries ∧ session.after calls = final := by
  induction calls generalizing session entries with
  | nil =>
    cases h
    exact ⟨rfl, rfl⟩
  | cons call rest ih =>
    simp only [attempt] at h
    split at h
    · cases h
    · rename_i verdict next first
      obtain ⟨⟨others, last⟩, attempted, same⟩ := Option.map_eq_some_iff.1 h
      cases same
      have performed := attemptEach_eq_some first
      rw [← perform_eq_markEach] at performed
      obtain ⟨rfl, rfl⟩ := ih attempted
      simp only [history, after, performed, and_self]

/-- A test of what an attempt gives is a test of the history and of the session after the calls. -/
theorem attempt_any (session : Session) (calls : List Call) (bound : Nat)
    (test : List (Except SupportError Unit × State) → Session → Bool)
    (h : (session.attempt bound calls).any fun (entries, final) => test entries final) :
    test (session.history calls) (session.after calls) := by
  obtain ⟨⟨entries, final⟩, attempted, passed⟩ := (Option.any_eq_true _ _).1 h
  obtain ⟨rfl, rfl⟩ := attempt_eq_some attempted
  exact passed

/-- Calls whose verdicts pass as successes succeed. -/
theorem succeeds_of_isOk {session : Session} {calls : List Call}
    (h : (session.history calls).all (·.1.isOk)) : session.Succeeds calls := by
  intro entry listed
  have ok := List.all_eq_true.1 h entry listed
  rcases entry with ⟨error | _, s⟩
  · cases ok
  · rfl

end Session

end Liveset
