import Liveset.Proofs.Reach.Calls

/-!
# The needs of the program are heeded

The rules of the program's own entities do not look at the repository. So in a pass that succeeds
all the entities that such a rule names are reached, whatever foreign classes were marked or loaded
besides (`Session.Succeeds.heeds`). While the loop runs they are reached or still due (`Heeded`),
and a move keeps this.
-/

set_option autoImplicit false

namespace Liveset

open Worklist

/-- A need that names an entity outright is met by a step towards it. -/
theorem Need.mark_mem_supply {r : Repository} {needs : List Need} {target : Entity}
    (wanted : .entity target ∈ needs) : .mark target ∈ (supply r needs).steps := by
  induction needs generalizing r with
  | nil => cases wanted
  | cons need rest ih =>
    simp only [supply, List.mem_append]
    rcases List.mem_cons.1 wanted with rfl | later
    · exact .inl List.mem_cons_self
    · exact .inr (ih later)

/-- The rules of the reached entities of the program have been applied, and what they name is
reached or asked for by the stack. -/
def Heeded (scene : Scene) (m : Machine) : Prop :=
  ∀ e, e.isForeign = false → m.state.isReached e → ∃ needs,
    scene.needs m.state.repository e = .ok needs ∧ ∀ target, .entity target ∈ needs → Due target m

/-- The rules of the reached entities of the program have been applied, and what they name is
reached. -/
def State.Heeds (scene : Scene) (s : State) : Prop :=
  ∀ e, e.isForeign = false → s.isReached e → ∃ needs,
    scene.needs s.repository e = .ok needs ∧ ∀ target, .entity target ∈ needs → s.isReached target

variable {scene : Scene} {m m' : Machine}

theorem Heeded.move (h : Heeded scene m) (move : Move scene m m') : Heeded scene m' := by
  intro e native reached
  -- Whatever a move adds to the repository, the rules of the program do not look at it.
  have kept : scene.needs m'.state.repository e = scene.needs m.state.repository e :=
    Scene.needs_of_extends (grows_of_moves (.single move)).repository
      (Entity.loaded_of_not_foreign native)
  have old (before : m.state.isReached e) : ∃ needs,
      scene.needs m'.state.repository e = .ok needs ∧
        ∀ target, .entity target ∈ needs → Due target m' := by
    obtain ⟨needs, asked, heeded⟩ := h e native before
    exact ⟨needs, kept.trans asked, fun target wanted => (heeded target wanted).move move⟩
  cases move with
  | visit new free visited =>
    rcases (State.isReached_visit visited).1 reached with rfl | before
    · -- The rule of the visited entity has just been applied; its steps are on top of the stack.
      obtain ⟨x, applied, rfl, -⟩ := State.visit_eq_ok visited
      obtain ⟨needs, asked, rfl⟩ := Scene.expand_eq_ok applied
      refine ⟨needs, kept.trans asked, fun target wanted => due_of_top ?_⟩
      exact Need.mark_mem_supply wanted
    · exact old before
  | _ => exact old reached

theorem State.heeds_iff {s : State} : s.Heeds scene ↔ Heeded scene ⟨s, []⟩ := by
  simp only [Heeds, Heeded, due_nil]

/-- Calls that succeed reach whatever the rules of the reached entities of the program name. -/
theorem Session.Succeeds.heeds {session : Session} {calls : List Call} (h : session.Succeeds calls)
    (start : session.state.Heeds session.scene) :
    (session.after calls).state.Heeds session.scene := by
  refine State.heeds_iff.2 (h.keeps Heeded.move (fun s e _ heeded => ?_) (fun _ heeded => heeded)
    (State.heeds_iff.1 start)).1
  intro e' native reached
  obtain ⟨needs, asked, heeds⟩ := heeded e' native reached
  exact ⟨needs, asked, fun target wanted => due_of_below (heeds target wanted)⟩

theorem Session.heeds_fresh (scene : Scene) (strategy : Strategy) (loader : Loader)
    (recordRetention : Bool) : (fresh scene strategy loader recordRetention).state.Heeds scene := by
  intro e _ reached
  simp [fresh, State.isReached] at reached

end Liveset
