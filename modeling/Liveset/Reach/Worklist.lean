import Liveset.Reach.State

/-!
# Marking with a stack of frames

The same order of visits as marking by recursion, with the pending work held in a stack. A pending
frame asks for an entity to be marked. It stays where it is while the owner of the entity is marked
on top of it, and is looked at again afterwards: the entity may have come to be reached meanwhile.
An expanding frame holds the steps of a visited entity that have not been taken yet.

A turn looks at the top frame. Turns follow each other until no frame is left or a rule fails.
Nothing here bounds their number; the loop is undefined where it does not end.

What this module delivers: `Worklist.turn` and `Worklist.mark?`.
-/

set_option autoImplicit false

namespace Liveset.Worklist

/-- A piece of pending work. -/
inductive Frame where
  /-- Mark `target`, reached from `source`. -/
  | pending (source : Option Entity) (target : Entity)
  /-- Take steps one after the other on behalf of `entity`. -/
  | expanding (entity : Entity) (steps : List Step)
deriving DecidableEq, Inhabited, Repr

/-- The state of a pass and the frames on the stack, the top one first. -/
structure Machine where
  state : State
  stack : List Frame

/-- What a turn leads to: the next turn, or the end of the loop. -/
inductive Turn where
  | next (machine : Machine)
  | over (outcome : Outcome)

/-- Look at a frame that asks for `target`, with the frames below it. -/
def examine (scene : Scene) (s : State) (source : Option Entity) (target : Entity)
    (below : List Frame) : Turn :=
  if s.isReached target then .next ⟨s, below⟩
  else match s.unreachedOwner? scene.program target with
    | some owner => .next ⟨s, .pending source owner :: .pending source target :: below⟩
    | none =>
      match s.visit scene source target with
      | (.error error, s) => .over (.failed error s)
      | (.ok steps, s) => .next ⟨s, .expanding target steps :: below⟩

/-- Take one step on behalf of `entity`, with the steps and frames that come after it. -/
def advance (scene : Scene) (s : State) (entity : Entity) (step : Step) (steps : List Step)
    (below : List Frame) : Turn :=
  match s.resolve? scene.program step with
  | some target => .next ⟨s, .pending (some entity) target :: .expanding entity steps :: below⟩
  | none => .next ⟨s, .expanding entity steps :: below⟩

/-- Look at the top frame. -/
def turn (scene : Scene) : Machine → Turn
  | ⟨s, []⟩ => .over (.done s)
  | ⟨s, .pending source target :: below⟩ => examine scene s source target below
  | ⟨s, .expanding _ [] :: below⟩ => .next ⟨s, below⟩
  | ⟨s, .expanding entity (step :: steps) :: below⟩ => advance scene s entity step steps below

/-- Take turns until the loop is over. -/
def Machine.run (scene : Scene) (machine : Machine) : Option Outcome :=
  match turn scene machine with
  | .next machine => machine |>.run scene
  | .over outcome => some outcome
partial_fixpoint

/-- The stack that asks for one entity. -/
def start (s : State) (entity : Entity) : Machine := ⟨s, [.pending none entity]⟩

/-- Mark an entity and everything it needs. -/
def mark? (scene : Scene) (s : State) (entity : Entity) : Option Outcome :=
  (start s entity).run scene

end Liveset.Worklist
