import Liveset.Reach.State

/-!
# Marking by recursion

To mark an entity: reach its owner first, then the entity itself, then mark what its steps ask for,
one step after the other. While the owner is being marked the entity may come to be reached through
it, so that is looked at again afterwards. A failure ends everything at once and leaves the state as
it was.

Nothing here bounds the depth of nested markings; marking is undefined where it does not end.

What this module delivers: `Recursive.mark?`.
-/

set_option autoImplicit false

namespace Liveset

namespace Scene

mutual

/-- Mark an entity that is reached from `source`. -/
def markFrom (scene : Scene) (s : State) (source : Option Entity) (entity : Entity) :
    Option Outcome :=
  if s.isReached entity then some (.done s)
  else match s.unreachedOwner? scene.program entity with
    | none => scene |>.enter s source entity
    | some owner => do
      match ← scene |>.markFrom s source owner with
      | ⟨.error error, s⟩ => some (.failed error s)
      | ⟨.ok (), s⟩ =>
        if s.isReached entity then some (.done s) else scene |>.enter s source entity
partial_fixpoint

/-- Reach an entity whose owner is reached, and take its steps. -/
def enter (scene : Scene) (s : State) (source : Option Entity) (entity : Entity) :
    Option Outcome :=
  match s.visit scene source entity with
  | (.error error, s) => some (.failed error s)
  | (.ok steps, s) => scene |>.takeSteps s entity steps
partial_fixpoint

/-- Take steps one after the other on behalf of `entity`. -/
def takeSteps (scene : Scene) (s : State) (entity : Entity) (steps : List Step) : Option Outcome :=
  match steps with
  | [] => some (.done s)
  | step :: steps =>
    match s.resolve? scene.program step with
    | none => scene |>.takeSteps s entity steps
    | some target => do
      match ← scene |>.markFrom s (some entity) target with
      | ⟨.error error, s⟩ => some (.failed error s)
      | ⟨.ok (), s⟩ => scene |>.takeSteps s entity steps
partial_fixpoint

end

end Scene

/-- Mark an entity and everything it needs. -/
def Recursive.mark? (scene : Scene) (s : State) (entity : Entity) : Option Outcome :=
  scene.markFrom s none entity

end Liveset
