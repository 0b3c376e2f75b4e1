import Liveset.Proofs.Reach.Visit
import Liveset.Reach.Worklist

/-!
# What it means to deal with a frame

`Completes scene s frame outcome` says that dealing with a frame from state `s`, and with everything
it leads to, ends in `outcome`. The relation has a rule for each thing that can happen to a frame
and speaks of neither a stack nor nested calls; both strategies are compared with it elsewhere.

All that a completion does to the state it does by visits of entities that are not reached yet,
after their owners. So whatever such a visit keeps, a completion keeps (`Completes.preserves`): in
particular nothing is ever lost from the state (`Completes.grows`).
-/

set_option autoImplicit false

namespace Liveset

open Worklist (Frame)

/-- Dealing with `frame` from state `s`, and with all that it leads to, ends in `outcome`. -/
inductive Completes (scene : Scene) : State → Frame → Outcome → Prop where
  /-- The entity is reached already. -/
  | reached {s : State} {source : Option Entity} {e : Entity} (known : s.isReached e) :
      Completes scene s (.pending source e) (.done s)
  /-- The owner comes first, and fails. -/
  | ownerFailed {s s' : State} {source : Option Entity} {e owner : Entity} {error : SupportError}
      (new : ¬ s.isReached e) (missing : s.unreachedOwner? scene.program e = some owner)
      (above : Completes scene s (.pending source owner) (.failed error s')) :
      Completes scene s (.pending source e) (.failed error s')
  /-- The owner comes first, then the entity is looked at again. -/
  | ownerDone {s s' : State} {source : Option Entity} {e owner : Entity} {outcome : Outcome}
      (new : ¬ s.isReached e) (missing : s.unreachedOwner? scene.program e = some owner)
      (above : Completes scene s (.pending source owner) (.done s'))
      (again : Completes scene s' (.pending source e) outcome) :
      Completes scene s (.pending source e) outcome
  /-- The entity is visited and its rule fails. -/
  | ruleFailed {s s' : State} {source : Option Entity} {e : Entity} {error : SupportError}
      (new : ¬ s.isReached e) (free : s.unreachedOwner? scene.program e = none)
      (visited : s.visit scene source e = (.error error, s')) :
      Completes scene s (.pending source e) (.failed error s')
  /-- The entity is visited and its steps are taken. -/
  | ruleApplied {s s' : State} {source : Option Entity} {e : Entity} {steps : List Step}
      {outcome : Outcome} (new : ¬ s.isReached e)
      (free : s.unreachedOwner? scene.program e = none)
      (visited : s.visit scene source e = (.ok steps, s'))
      (rest : Completes scene s' (.expanding e steps) outcome) :
      Completes scene s (.pending source e) outcome
  /-- No steps are left. -/
  | noStep {s : State} {e : Entity} : Completes scene s (.expanding e []) (.done s)
  /-- The first step asks for nothing. -/
  | stepSkipped {s : State} {e : Entity} {step : Step} {steps : List Step} {outcome : Outcome}
      (idle : s.resolve? scene.program step = none)
      (rest : Completes scene s (.expanding e steps) outcome) :
      Completes scene s (.expanding e (step :: steps)) outcome
  /-- What the first step asks for fails. -/
  | stepFailed {s s' : State} {e target : Entity} {step : Step} {steps : List Step}
      {error : SupportError} (asked : s.resolve? scene.program step = some target)
      (taken : Completes scene s (.pending (some e) target) (.failed error s')) :
      Completes scene s (.expanding e (step :: steps)) (.failed error s')
  /-- What the first step asks for is marked, and the other steps follow. -/
  | stepTaken {s s' : State} {e target : Entity} {step : Step} {steps : List Step}
      {outcome : Outcome} (asked : s.resolve? scene.program step = some target)
      (taken : Completes scene s (.pending (some e) target) (.done s'))
      (rest : Completes scene s' (.expanding e steps) outcome) :
      Completes scene s (.expanding e (step :: steps)) outcome

namespace Completes

variable {scene : Scene} {s : State} {frame : Frame} {outcome : Outcome}

/-- What visits keep, a completion keeps. -/
theorem preserves {P : State → Prop} (visit : KeptByVisits scene P)
    (h : Completes scene s frame outcome) (start : P s) : P outcome.state := by
  induction h with
  | reached => exact start
  | ownerFailed _ _ _ above => exact above start
  | ownerDone _ _ _ _ above again => exact again (above start)
  | ruleFailed new free visited =>
    exact visit _ _ _ _ _ visited new (State.unreachedOwner?_eq_none.1 free) start
  | ruleApplied new free visited _ rest =>
    exact rest (visit _ _ _ _ _ visited new (State.unreachedOwner?_eq_none.1 free) start)
  | noStep => exact start
  | stepSkipped _ _ rest => exact rest start
  | stepFailed _ _ taken => exact taken start
  | stepTaken _ _ _ taken rest => exact rest (taken start)

/-- Nothing is lost in a completion. -/
theorem grows (h : Completes scene s frame outcome) : s.Grows outcome.state :=
  h.preserves (keptByVisits_grows scene s) (.refl s)

/-- A marking that succeeds reaches its entity. -/
theorem isReached_of_ok {source : Option Entity} {e : Entity}
    (h : Completes scene s (.pending source e) outcome) (ok : outcome.verdict = .ok ()) :
    outcome.state.isReached e := by
  -- The induction runs over all frames; a frame of steps is no marking.
  generalize asked : Frame.pending source e = frame at h
  induction h with
  | reached known => cases asked; exact known
  | ownerFailed | ruleFailed | stepFailed => cases ok
  | ownerDone _ _ _ _ _ again => cases asked; exact again ok rfl
  | ruleApplied _ _ visited rest =>
    cases asked
    exact rest.grows.reached ((State.isReached_visit visited).2 (.inl rfl))
  | noStep | stepSkipped | stepTaken => cases asked

/-- Once its owner is marked, no owner is in the way of an entity. -/
theorem unreachedOwner?_eq_none {s' : State} {source : Option Entity} {e owner : Entity}
    (above : Completes scene s (.pending source owner) (.done s'))
    (missing : s.unreachedOwner? scene.program e = some owner) :
    s'.unreachedOwner? scene.program e = none := by
  rw [State.unreachedOwner?_eq_none]
  intro other owns
  cases (State.unreachedOwner?_eq_some.1 missing).1.symm.trans owns
  exact above.isReached_of_ok rfl

end Completes

end Liveset
