import Liveset.Proofs.Reach.Termination
import Liveset.Proofs.Reach.Turn
import Liveset.Reach.Recursive

/-!
# Both strategies end alike

The loop over a stack of frames deals with its top frame as a completion says, and then with the
frames below it (`Worklist.run_cons`); nested calls do what a completion says as well
(`Recursive.handle_of_completes`). Every frame has a completion, so both strategies end, in the same
outcome and from whatever state they start (`exists_outcome`).
-/

set_option autoImplicit false

namespace Liveset

variable {scene : Scene} {s : State} {frame : Worklist.Frame} {outcome : Outcome}

/-! ## The loop -/

namespace Worklist

/-- What is left of the loop after the outcome of the top frame. -/
def resume (scene : Scene) (below : List Frame) : Outcome → Option Outcome
  | ⟨.ok (), s⟩ => Machine.run scene ⟨s, below⟩
  | ⟨.error error, s⟩ => some (.failed error s)

/-- The loop deals with the top frame, and goes on with the frames below unless that failed. -/
theorem run_cons (h : Completes scene s frame outcome) (below : List Frame) :
    Machine.run scene ⟨s, frame :: below⟩ = resume scene below outcome := by
  induction h generalizing below with
  | reached known => exact (Move.reached known).run_eq
  | ownerFailed new missing _ above =>
    rw [(Move.owner new missing).run_eq, above]
    rfl
  | ownerDone new missing _ _ above again =>
    rw [(Move.owner new missing).run_eq, above]
    exact again below
  | ruleFailed new free visited => exact (Stop.failed new free visited).run_eq
  | ruleApplied new free visited _ rest =>
    rw [(Move.visit new free visited).run_eq]
    exact rest below
  | noStep => exact Move.finish.run_eq
  | stepSkipped idle _ rest =>
    rw [(Move.skip idle).run_eq]
    exact rest below
  | stepFailed asked _ taken =>
    rw [(Move.take asked).run_eq, taken]
    rfl
  | stepTaken asked _ _ taken rest =>
    rw [(Move.take asked).run_eq, taken]
    exact rest below

/-- The loop over an empty stack is over. -/
theorem resume_nil (outcome : Outcome) : resume scene [] outcome = some outcome := by
  rcases outcome with ⟨error | _, s⟩
  · rfl
  · exact Stop.done.run_eq

theorem mark?_of_completes {e : Entity} (h : Completes scene s (.pending none e) outcome) :
    mark? scene s e = some outcome := by
  rw [mark?, start, run_cons h, resume_nil]

end Worklist

/-! ## Nested calls -/

namespace Recursive

/-- The nested call that deals with a frame. -/
def handle (scene : Scene) (s : State) : Worklist.Frame → Option Outcome
  | .pending source e => scene.markFrom s source e
  | .expanding e steps => scene.takeSteps s e steps

theorem markFrom_of_free {source : Option Entity} {e : Entity} (new : ¬ s.isReached e)
    (free : s.unreachedOwner? scene.program e = none) :
    scene.markFrom s source e = scene.enter s source e := by
  rw [Scene.markFrom, if_neg new, free]

theorem handle_of_completes (h : Completes scene s frame outcome) :
    handle scene s frame = some outcome := by
  induction h with
  | reached known => rw [handle, Scene.markFrom, if_pos known]
  | ownerFailed new missing _ above =>
    rw [handle] at above
    rw [handle, Scene.markFrom, if_neg new, missing]
    simp only [above]
    rfl
  | @ownerDone s s' source e owner outcome new missing above again ih ih' =>
    -- The nested call has only two looks at the entity where the frame may be looked at any number
    -- of times. Once the owner is reached, two are enough.
    have free := above.unreachedOwner?_eq_none missing
    rw [handle] at ih ih'
    rw [handle, Scene.markFrom, if_neg new, missing]
    simp only [ih]
    rw [← ih']
    by_cases known : s'.isReached e
    · rw [Scene.markFrom, if_pos known]
      simp [known, Outcome.done]
    · rw [markFrom_of_free known free]
      simp [known, Outcome.done]
  | ruleFailed new free visited =>
    rw [handle, markFrom_of_free new free, Scene.enter]
    simp only [visited]
  | ruleApplied new free visited _ rest =>
    rw [handle, markFrom_of_free new free, Scene.enter]
    simp only [visited]
    exact rest
  | noStep => rw [handle, Scene.takeSteps]
  | stepSkipped idle _ rest =>
    rw [handle, Scene.takeSteps]
    simp only [idle]
    exact rest
  | stepFailed asked _ taken =>
    rw [handle] at taken
    rw [handle, Scene.takeSteps]
    simp only [asked, taken]
    rfl
  | stepTaken asked _ _ taken rest =>
    rw [handle] at taken
    rw [handle, Scene.takeSteps]
    simp only [asked, taken]
    exact rest

theorem mark?_of_completes {e : Entity} (h : Completes scene s (.pending none e) outcome) :
    mark? scene s e = some outcome :=
  handle_of_completes h

end Recursive

/-- Both strategies end, in the same outcome, from every state. -/
theorem exists_outcome (scene : Scene) (s : State) (e : Entity) :
    ∃ outcome, Worklist.mark? scene s e = some outcome ∧
      Recursive.mark? scene s e = some outcome := by
  obtain ⟨outcome, ended⟩ := exists_completes scene s (.pending none e)
  exact ⟨outcome, Worklist.mark?_of_completes ended, Recursive.mark?_of_completes ended⟩

end Liveset
