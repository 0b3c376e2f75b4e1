import Liveset.Proofs.Reach.Order
import Liveset.Proofs.Reach.Warrant

/-!
# Where reached entities come from

An entity is visited from nothing, on the way to a root, or from an entity that was visited before,
on the way to something that the rule of that one asks for. On the way to an entity stand its owner
and the owner of its owner. `Cause` says this, with the rule evaluated in the repository of the
moment; a repository that grows leaves causes as they are (`Cause.mono`).

Every frame of the stack carries its cause (`Traced`), so every visit of a pass has one, and what
visits with causes keep holds after any calls, failed ones included (`Session.preserves_caused`). In
particular every reached entity has a cause among the entities before it in the order
(`State.Caused`).
-/

set_option autoImplicit false

namespace Liveset

open Worklist

/-! ## Causes -/

/-- Marking the target comes to the entity: it is the target, its owner, or the owner of its
owner. -/
def Program.OnTheWay (p : Program) (target e : Entity) : Prop :=
  e = target ∨ p.owner? target = some e ∨
    ∃ owner, p.owner? target = some owner ∧ p.owner? owner = some e

/-- Whoever is on the way has an owner on the way, if any. -/
theorem Program.OnTheWay.owner {p : Program} {target e above : Entity} (h : p.OnTheWay target e)
    (owns : p.owner? e = some above) : p.OnTheWay target above := by
  rcases h with rfl | owned | ⟨owner, owned, higher⟩
  · exact .inr (.inl owns)
  · exact .inr (.inr ⟨e, owned, owns⟩)
  · -- Three owners above each other: there is no room for that many.
    have first := (Program.height_owner owned).1
    have second := (Program.height_owner higher).1
    have third := (Program.height_owner owns).1
    have bound := target.height_le_two
    omega

theorem Program.OnTheWay.isForeign_eq {p : Program} {target e : Entity} (h : p.OnTheWay target e) :
    e.isForeign = target.isForeign := by
  rcases h with rfl | owned | ⟨owner, owned, higher⟩
  · rfl
  · exact (Program.height_owner owned).2
  · exact (Program.height_owner higher).2.trans (Program.height_owner owned).2

namespace Scene

variable {scene : Scene} {r r' : Repository} {e : Entity} {step : Step}

/-- The rule of the entity gives the step, and loads nothing that the repository does not have. -/
def Takes (scene : Scene) (r : Repository) (e : Entity) (step : Step) : Prop :=
  ∃ x, scene.expand r e = .ok x ∧ x.repository = r ∧ step ∈ x.steps

theorem takes_of_expand {x : Expansion} (consistent : r.Consistent) (h : scene.expand r e = .ok x)
    (listed : step ∈ x.steps) (grown : x.repository.Extends r') : scene.Takes r' e step := by
  have loaded := loaded_of_steps h (List.ne_nil_of_mem listed)
  exact ⟨_, expand_of_extends consistent loaded h grown, rfl, listed⟩

theorem Takes.mono (h : scene.Takes r e step) (consistent : r.Consistent) (grown : r.Extends r') :
    scene.Takes r' e step := by
  obtain ⟨x, applied, same, listed⟩ := h
  exact takes_of_expand consistent applied listed (same ▸ grown)

/-- The rule of `source` asks for `target`: by name, or as the method that `source` overrides. -/
def AsksFor (scene : Scene) (r : Repository) (source target : Entity) : Prop :=
  scene.Takes r source (.mark target) ∨
    ∃ method base, source = .method method ∧ scene.Takes r source (.markOverridden method) ∧
      scene.program.overridden? method = some base ∧ target = .method base

theorem AsksFor.mono {source target : Entity} (h : scene.AsksFor r source target)
    (consistent : r.Consistent) (grown : r.Extends r') : scene.AsksFor r' source target := by
  rcases h with named | ⟨method, base, same, takes, overrides, rfl⟩
  · exact .inl (named.mono consistent grown)
  · exact .inr ⟨method, base, same, takes.mono consistent grown, overrides, rfl⟩

/-- Whatever a step leads to in some state, the rule asks for. -/
theorem Takes.asksFor {s : State} {target : Entity} (h : scene.Takes r e step)
    (resolved : s.resolve? scene.program step = some target) : scene.AsksFor r e target := by
  cases step with
  | mark direct =>
    cases resolved
    exact .inl h
  | markOverridden method =>
    obtain ⟨base, ⟨overrides, -⟩, rfl⟩ := State.overriddenTarget?_eq_some.1 resolved
    have same : e = .method method := by
      obtain ⟨x, applied, -, listed⟩ := h
      exact eq_method_of_markOverridden applied listed
    exact .inr ⟨method, base, same, h, overrides, rfl⟩

end Scene

/-- Why an entity is visited from a source, or from nothing: it is on the way to something that the
rule of the source asks for, or to a root. -/
def Cause (scene : Scene) (roots : Entity → Prop) (r : Repository) : Option Entity → Entity → Prop
  | none, e => ∃ root, roots root ∧ scene.program.OnTheWay root e
  | some source, e => ∃ target, scene.AsksFor r source target ∧ scene.program.OnTheWay target e

variable {scene : Scene} {roots : Entity → Prop} {r r' : Repository} {source : Option Entity}
  {e : Entity} {m m' : Machine} {P : State → Prop}

theorem Cause.mono (h : Cause scene roots r source e) (consistent : r.Consistent)
    (grown : r.Extends r') : Cause scene roots r' source e := by
  cases source with
  | none => exact h
  | some source =>
    obtain ⟨target, asks, way⟩ := h
    exact ⟨target, asks.mono consistent grown, way⟩

theorem Cause.owner {above : Entity} (h : Cause scene roots r source e)
    (owns : scene.program.owner? e = some above) : Cause scene roots r source above := by
  cases source with
  | none =>
    obtain ⟨root, given, way⟩ := h
    exact ⟨root, given, way.owner owns⟩
  | some source =>
    obtain ⟨target, asks, way⟩ := h
    exact ⟨target, asks, way.owner owns⟩

/-! ## Causes on the stack -/

/-- A pending frame has a cause, and its source is reached. The steps of an expanding frame are
steps of its entity, which is reached. -/
def Worklist.Frame.Traced (scene : Scene) (roots : Entity → Prop) (s : State) : Frame → Prop
  | .pending source e =>
    Cause scene roots s.repository source e ∧ ∀ origin, source = some origin → s.isReached origin
  | .expanding e steps => s.isReached e ∧ ∀ step ∈ steps, scene.Takes s.repository e step

theorem Worklist.Frame.Traced.mono {s s' : State} {frame : Frame}
    (h : frame.Traced scene roots s) (consistent : s.repository.Consistent) (grown : s.Grows s') :
    frame.Traced scene roots s' := by
  cases frame with
  | pending source e =>
    obtain ⟨cause, known⟩ := h
    refine ⟨cause.mono consistent grown.repository, fun origin same => ?_⟩
    exact grown.reached (known origin same)
  | expanding e steps =>
    obtain ⟨known, takes⟩ := h
    refine ⟨grown.reached known, fun step listed => ?_⟩
    exact (takes step listed).mono consistent grown.repository

/-- Every frame of the stack carries its cause. -/
structure Traced (scene : Scene) (roots : Entity → Prop) (m : Machine) : Prop where
  consistent : m.state.repository.Consistent
  frames : ∀ frame ∈ m.stack, frame.Traced scene roots m.state

theorem Traced.move (h : Traced scene roots m) (move : Move scene m m') :
    Traced scene roots m' := by
  refine ⟨move.preserves (keptByVisits_consistent scene) h.consistent, ?_⟩
  have frames := h.frames
  cases move with
  | reached known => exact (List.forall_mem_cons.1 frames).2
  | @owner s source e above below new missing =>
    have owns := (State.unreachedOwner?_eq_some.1 missing).1
    obtain ⟨cause, known⟩ := (List.forall_mem_cons.1 frames).1
    exact List.forall_mem_cons.2 ⟨⟨cause.owner owns, known⟩, frames⟩
  | @visit s s' source e steps below new free visited =>
    refine List.forall_mem_cons.2 ⟨⟨?_, fun step listed => ?_⟩, fun frame listed => ?_⟩
    · exact (State.isReached_visit visited).2 (.inl rfl)
    · obtain ⟨x, applied, rfl, same⟩ := State.visit_eq_ok visited
      exact Scene.takes_of_expand h.consistent applied listed (same ▸ .refl _)
    · -- The frames below keep their causes while the repository grows.
      have before := (List.forall_mem_cons.1 frames).2 frame listed
      exact before.mono h.consistent (State.grows_visit visited)
  | finish => exact (List.forall_mem_cons.1 frames).2
  | skip idle =>
    obtain ⟨⟨known, takes⟩, below⟩ := List.forall_mem_cons.1 frames
    refine List.forall_mem_cons.2 ⟨⟨known, fun step listed => ?_⟩, below⟩
    exact takes step (List.mem_cons_of_mem _ listed)
  | @take s e target step steps below asked =>
    obtain ⟨⟨known, takes⟩, below⟩ := List.forall_mem_cons.1 frames
    refine List.forall_mem_cons.2 ⟨⟨?_, ?_⟩, List.forall_mem_cons.2 ⟨⟨known, ?_⟩, below⟩⟩
    · exact ⟨target, (takes step List.mem_cons_self).asksFor asked, .inl rfl⟩
    · rintro origin ⟨⟩
      exact known
    · exact fun step listed => takes step (List.mem_cons_of_mem _ listed)

/-! ## What visits with causes keep -/

/-- The property passes from a state to the one that a visit leaves, whenever the entity visited is
new, its owner is reached, and it has a cause whose source is reached. -/
def KeptByCausedVisits (scene : Scene) (roots : Entity → Prop) (P : State → Prop) : Prop :=
  ∀ (s s' : State) (source : Option Entity) (e : Entity)
    (verdict : Except SupportError (List Step)),
    s.visit scene source e = (verdict, s') → ¬ s.isReached e →
    (∀ owner, scene.program.owner? e = some owner → s.isReached owner) →
    s.repository.Consistent → Cause scene roots s.repository source e →
    (∀ origin, source = some origin → s.isReached origin) → P s → P s'

theorem Worklist.Move.preserves_caused (visit : KeptByCausedVisits scene roots P)
    (traced : Traced scene roots m) (h : Move scene m m') (start : P m.state) : P m'.state := by
  cases h with
  | visit new free visited =>
    obtain ⟨cause, known⟩ := traced.frames _ List.mem_cons_self
    exact visit _ _ _ _ _ visited new (State.unreachedOwner?_eq_none.1 free) traced.consistent cause
      known start
  | _ => exact start

/-- A marking that starts from a root keeps what visits with causes keep, whether or not it
fails. -/
theorem Strategy.preserves_caused (strategy : Strategy) (visit : KeptByCausedVisits scene roots P)
    {s : State} (consistent : s.repository.Consistent) (root : roots e) (start : P s) :
    (strategy.mark scene s e).state.repository.Consistent ∧ P (strategy.mark scene s e).state := by
  obtain ⟨last, moves, stop⟩ := strategy.exists_moves scene s e
  have begin : Traced scene roots (Worklist.start s e) := by
    refine ⟨consistent, List.forall_mem_singleton.2 ⟨⟨e, root, .inl rfl⟩, ?_⟩⟩
    intro origin same
    cases same
  obtain ⟨traced, kept⟩ := keeps (P := fun m => Traced scene roots m ∧ P m.state)
    (fun m m' move h => ⟨h.1.move move, move.preserves_caused visit h.1 h.2⟩) moves ⟨begin, start⟩
  refine ⟨stop.preserves (keptByVisits_consistent scene) traced.consistent, ?_⟩
  generalize strategy.mark scene s e = outcome at stop
  cases stop with
  | done => exact kept
  | failed new free visited =>
    -- The entity whose rule fails is visited too, and has its cause from the top frame.
    obtain ⟨cause, known⟩ := traced.frames _ List.mem_cons_self
    exact visit _ _ _ _ _ visited new (State.unreachedOwner?_eq_none.1 free) traced.consistent cause
      known kept

/-- What visits with causes keep holds after whatever calls. -/
theorem Session.preserves_caused (session : Session) (calls : List Call)
    (visit : KeptByCausedVisits session.scene (Given session.scene calls) P)
    (count : ∀ s, P s → P { s with roots := s.roots + 1 })
    (consistent : session.state.repository.Consistent) (start : P session.state) :
    (session.after calls).state.repository.Consistent ∧ P (session.after calls).state := by
  refine ((session.trail_after calls).keeps
    (P := fun s => s.repository.Consistent ∧ P s) (fun s kept => ⟨kept.1, count s kept.2⟩)
    (fun s e marked kept => ?_) ⟨consistent, start⟩).1
  obtain ⟨call, listed, target⟩ := mem_targets_of_mem_markings marked
  exact session.strategy.preserves_caused visit kept.1 (given_of_mem_targets listed target) kept.2

/-! ## Reached entities -/

/-- Every reached entity has a cause, with its source before it in the order. -/
def State.Caused (scene : Scene) (roots : Entity → Prop) (s : State) : Prop :=
  ∀ e, s.isReached e → ∃ source, Cause scene roots s.repository source e ∧
    ∀ origin, source = some origin → s.Precedes origin e

theorem keptByCausedVisits_caused (scene : Scene) (roots : Entity → Prop) :
    KeptByCausedVisits scene roots fun s => s.Ordered ∧ s.Caused scene roots := by
  intro s s' source e verdict visited new free consistent cause known ⟨ordered, caused⟩
  refine ⟨keptByVisits_ordered scene s s' source e verdict visited new free ordered, ?_⟩
  have grown := State.grows_visit visited
  intro x reached
  rcases (State.isReached_visit visited).1 reached with rfl | before
  · -- The entity that is visited comes last, and its source is in the order by then.
    refine ⟨source, cause.mono consistent grown.repository, fun origin same => ?_⟩
    exact ordered.precedes_visit visited (known origin same)
  · obtain ⟨source', cause', precedes⟩ := caused x before
    refine ⟨source', cause'.mono consistent grown.repository, fun origin same => ?_⟩
    exact (precedes origin same).mono grown

theorem Session.ordered_fresh (scene : Scene) (strategy : Strategy) (loader : Loader)
    (recordRetention : Bool) : (fresh scene strategy loader recordRetention).state.Ordered :=
  ⟨by simp [fresh], by simp [fresh, State.isReached]⟩

/-- After whatever calls of a fresh session every reached entity has a cause. -/
theorem Session.caused_after (scene : Scene) (strategy : Strategy) (loader : Loader)
    (recordRetention : Bool) (calls : List Call) :
    let s := ((fresh scene strategy loader recordRetention).after calls).state
    s.Ordered ∧ s.Caused scene (Given scene calls) := by
  refine ((fresh scene strategy loader recordRetention).preserves_caused calls
    (keptByCausedVisits_caused scene (Given scene calls)) (fun s kept => ?_)
    (Repository.consistent_fresh loader)
    ⟨ordered_fresh scene strategy loader recordRetention, fun e reached => ?_⟩).2
  · exact ⟨kept.1.countRoot, kept.2⟩
  · simp [fresh, State.isReached] at reached

end Liveset
