import Liveset.Proofs.Foreign.Fidelity
import Liveset.Proofs.Reach.Bridge
import Liveset.Proofs.Reach.Returning
import Liveset.Proofs.Reach.Wrapping

/-!
# The order of the roots

In a program where no method overrides another one, what a pass reaches depends on the set of its
roots and not on their order. The foreign classes get their handles in the order in which they are
loaded, so the foreign entities of two passes are compared by the name of their class and the
position in it (`Entity.Matches`).

Matching entities have the same needs, and needs that both repositories have answered lead to
matching entities (`Scene.exists_matching_step`). Along the order of one pass, whatever its calls
came to, every entity has therefore a match among those that a pass over the same roots has reached
with success (`State.Caused.within`). This also says that one pass fails only if the other one does:
the entity whose rule fails would be reached in both.
-/

set_option autoImplicit false

namespace Liveset

open Worklist

/-! ## Matching entities -/

/-- The entities are the same, but for the handles of foreign classes: those belong to one class. -/
inductive Entity.Matches (r r' : Repository) : Entity → Entity → Prop where
  | native {e : Entity} (inside : e.isForeign = false) : Matches r r' e e
  | foreignClass {id id' : ClassId} (same : r.SameClass r' id id') :
      Matches r r' (.foreignClass id) (.foreignClass id')
  | foreignMember {id id' : ClassId} (kind : ForeignKind) (position : Nat)
      (same : r.SameClass r' id id') :
      Matches r r' (kind.entity id position) (kind.entity id' position)

/-- The repositories have the same loader and give its answers. -/
structure Repository.Twins (r r' : Repository) : Prop where
  loader_eq : r'.loader = r.loader
  left : r.Faithful
  right : r'.Faithful

variable {scene : Scene} {r r' : Repository} {e e' : Entity}

/-- What is on the way to an entity is matched by what is on the way to its match. -/
theorem Entity.Matches.onTheWay {p : Program} {target target' : Entity}
    (h : target.Matches r r' target') (way : p.OnTheWay target e) :
    ∃ e', e.Matches r r' e' ∧ p.OnTheWay target' e' := by
  cases h with
  | native inside => exact ⟨e, .native (way.isForeign_eq.trans inside), way⟩
  | @foreignClass id id' same =>
    rcases way.foreign rfl with rfl | ⟨kind, _, _, isMember, -⟩
    · exact ⟨_, .foreignClass same, .inl rfl⟩
    · cases kind <;> cases isMember
  | @foreignMember id id' kind position same =>
    rcases way.foreign (kind.isForeign_entity id position) with rfl | ⟨kind', _, _, isMember, rfl⟩
    · exact ⟨_, .foreignMember kind position same, .inl rfl⟩
    · refine ⟨.foreignClass id', .foreignClass ?_, .inr (.inl ?_)⟩
      · cases kind <;> cases kind' <;> cases isMember <;> exact same
      · cases kind <;> rfl

namespace Scene

/-- Matching entities have the same needs. -/
theorem needs_of_matches (twins : r.Twins r') (h : e.Matches r r' e') :
    scene.needs r' e' = scene.needs r e := by
  cases h with
  | native inside =>
    cases e
    case foreignClass | foreignField | foreignMethod => cases inside
    all_goals rfl
  | foreignClass same =>
    obtain ⟨c, loaded, loaded'⟩ := same.exists_class twins.left twins.right twins.loader_eq
    simp only [needs, loaded, loaded']
  | foreignMember kind position same => cases kind <;> rfl

end Scene

namespace Need

variable {need : Need} {target : Entity}

/-- An import that both repositories have answered comes to matching entities. -/
theorem exists_matching_target (twins : r.Twins r') {kind : ForeignKind} {imported : MemberImport}
    (asked : (r.tryLoad imported.className).2 = r) (asked' : (r'.tryLoad imported.className).2 = r')
    (wanted : target ∈ (r.fate kind imported).targets kind) :
    ∃ target', target.Matches r r' target' ∧ target' ∈ (r'.fate kind imported).targets kind := by
  obtain ⟨id, found, -⟩ := Repository.tryLoad_of_mem_targets wanted
  obtain ⟨id', found', same⟩ :=
    twins.left.exists_sameClass twins.right twins.loader_eq asked asked' found
  -- Both handles belong to one class, so the member has the same position under both, or none.
  obtain ⟨c, loaded, loaded'⟩ := same.exists_class twins.left twins.right twins.loader_eq
  simp only [Repository.fate, found, found', loaded, loaded'] at wanted ⊢
  cases h : (c.members kind).idxOf? ⟨imported.memberName, imported.descriptor⟩ with
  | none =>
    simp only [h, Option.bind_some, Fate.targets, List.mem_singleton] at wanted ⊢
    rw [wanted]
    exact ⟨_, .foreignClass same, rfl⟩
  | some position =>
    simp only [h, Option.bind_some, Fate.targets, List.mem_cons, List.not_mem_nil, or_false]
      at wanted ⊢
    rcases wanted with rfl | rfl
    · exact ⟨_, .foreignClass same, .inl rfl⟩
    · exact ⟨_, .foreignMember kind position same, .inr rfl⟩

/-- A need that both repositories have answered leads to matching entities. -/
theorem exists_matching_mark (twins : r.Twins r') (allowed : need.Allowed e)
    (settled : need.Settled r) (settled' : need.Settled r')
    (wanted : .mark target ∈ (need.meet r).steps) :
    ∃ target', target.Matches r r' target' ∧ .mark target' ∈ (need.meet r').steps := by
  cases need with
  | entity native =>
    cases List.mem_singleton.1 wanted
    exact ⟨target, .native allowed, List.mem_cons_self⟩
  | overridden method => cases List.mem_singleton.1 wanted
  | foreignClass name =>
    rw [meet_foreignClass] at wanted ⊢
    obtain ⟨id, found, isTarget⟩ := List.mem_map.1 wanted
    cases isTarget
    rw [Settled, repository_meet] at settled settled'
    obtain ⟨id', found', same⟩ := twins.left.exists_sameClass twins.right twins.loader_eq settled
      settled' (Option.mem_toList.1 found)
    exact ⟨_, .foreignClass same, List.mem_map.2 ⟨id', Option.mem_toList.2 found', rfl⟩⟩
  | foreignMember kind imported requester =>
    rw [meet_foreignMember settled] at wanted
    rw [meet_foreignMember settled']
    obtain ⟨other, listed, isTarget⟩ := List.mem_map.1 wanted
    cases isTarget
    rw [Settled, repository_meet] at settled settled'
    obtain ⟨target', matching, listed'⟩ := exists_matching_target twins settled settled' listed
    exact ⟨target', matching, List.mem_map_of_mem listed'⟩

end Need

/-- The rules of matching entities ask for matching entities. -/
theorem Scene.exists_matching_step (twins : r.Twins r') (matching : e.Matches r r' e')
    {target : Entity} (takes : scene.Takes r e (.mark target)) {x : Expansion}
    (applied : scene.expand r' e' = .ok x) (same : x.repository = r') :
    ∃ target', target.Matches r r' target' ∧ .mark target' ∈ x.steps := by
  obtain ⟨x₀, applied₀, same₀, listed⟩ := takes
  obtain ⟨needs₀, asked₀, settled₀, steps₀, -⟩ := expand_of_settled applied₀ same₀
  obtain ⟨needs, asked, settled, steps, -⟩ := expand_of_settled applied same
  rw [needs_of_matches twins matching, asked₀] at asked
  cases asked
  rw [steps₀] at listed
  obtain ⟨need, wanted, listed⟩ := List.mem_flatMap.1 listed
  obtain ⟨target', matched, listed'⟩ := Need.exists_matching_mark twins
    (allowed_of_needs asked₀ need wanted) (settled₀ need wanted) (settled need wanted) listed
  refine ⟨target', matched, ?_⟩
  rw [steps]
  exact List.mem_flatMap.2 ⟨need, wanted, listed'⟩

/-! ## Two passes -/

/-- Every reached entity of `s` has a match among those of `s'`. -/
def State.Within (s s' : State) : Prop :=
  ∀ e, s.isReached e → ∃ e', e.Matches s.repository s'.repository e' ∧ s'.isReached e'

theorem Tended.isReached_onTheWay {s : State} {target : Entity} (h : Tended scene ⟨s, []⟩)
    (reached : s.isReached target) (way : scene.program.OnTheWay target e) : s.isReached e := by
  rcases way with rfl | owned | ⟨owner, owned, higher⟩
  · exact reached
  · exact h.owner target e reached owned
  · exact h.owner owner e (h.owner target owner reached owned) higher

/-- Along the order of one pass, everything has a match in another one that is closed and has the
roots. -/
theorem State.Caused.within {s s' : State} {roots : Entity → Prop} (caused : s.Caused scene roots)
    (ordered : s.Ordered) (tended : Tended scene ⟨s', []⟩)
    (twins : s.repository.Twins s'.repository) (plain : ∀ m, scene.program.overridden? m = none)
    (native : ∀ root, roots root → root.isForeign = false)
    (given : ∀ root, roots root → s'.isReached root) : s.Within s' := by
  refine ordered.induction fun e reached ih => ?_
  obtain ⟨source, cause, precedes⟩ := caused e reached
  cases source with
  | none =>
    obtain ⟨root, isRoot, way⟩ := cause
    refine ⟨e, .native (way.isForeign_eq.trans (native root isRoot)), ?_⟩
    exact tended.isReached_onTheWay (given root isRoot) way
  | some origin =>
    -- The source comes earlier, so it has a match, whose rule asks for a match of the target.
    obtain ⟨target, asks, way⟩ := cause
    obtain ⟨origin', matching, reached'⟩ := ih origin (precedes origin rfl)
    obtain ⟨x, applied, same, steps⟩ := tended.rule origin' reached'
    rcases asks with takes | ⟨method, base, -, -, overrides, -⟩
    · obtain ⟨target', matched, listed⟩ :=
        Scene.exists_matching_step twins matching takes applied same
      obtain ⟨e', matched', way'⟩ := matched.onTheWay way
      exact ⟨e', matched', tended.isReached_onTheWay (due_nil.1 (steps target' listed)) way'⟩
    · rw [plain method] at overrides
      cases overrides

/-! ## Failures -/

/-- Whether a rule fails does not depend on the repository. -/
theorem Scene.needs_of_error {error : SupportError} (h : scene.needs r e = .error error)
    (r' : Repository) : scene.needs r' e = .error error := by
  cases e
  case foreignClass | foreignField | foreignMethod => cases h
  all_goals exact h

/-- A marking that fails leaves an entity reached whose rule fails. -/
theorem Strategy.exists_failing (strategy : Strategy) {s : State} {error : SupportError}
    (failed : (strategy.mark scene s e).verdict = .error error) :
    ∃ culprit, (strategy.mark scene s e).state.isReached culprit ∧
      ∀ r, scene.needs r culprit = .error error := by
  obtain ⟨last, moves, stop⟩ := strategy.exists_moves scene s e
  generalize strategy.mark scene s e = outcome at stop failed ⊢
  cases stop with
  | done => cases failed
  | @failed s s' source culprit error' below new free visited =>
    cases failed
    have fails := Scene.expand_eq_error (State.visit_eq_error visited).1
    exact ⟨culprit, (State.isReached_visit visited).2 (.inl rfl), Scene.needs_of_error fails⟩

theorem Session.exists_failing {session : Session} {calls : List Call}
    (h : ¬ session.Succeeds calls) :
    ∃ culprit error, (session.after calls).isReached culprit ∧
      ∀ r, session.scene.needs r culprit = .error error := by
  by_cases ok : ∀ s e, (s, e) ∈ session.markings calls →
      (session.strategy.mark session.scene s e).verdict = .ok ()
  · exact absurd (succeeds_of_markings ok) h
  · simp only [Classical.not_forall] at ok
    obtain ⟨s, e, marked, notOk⟩ := ok
    cases verdict : (session.strategy.mark session.scene s e).verdict with
    | ok done => exact absurd verdict notOk
    | error error =>
      obtain ⟨culprit, reached, fails⟩ := session.strategy.exists_failing verdict
      have grown := (session.trail_after calls).grows_of_mem marked
      exact ⟨culprit, error, grown.reached reached, fails⟩

/-! ## Sessions over one loader -/

namespace Session

variable {strategy : Strategy} {loader : Loader} {recordRetention : Bool} {calls calls' : List Call}

/-- Calls keep the repository faithful to its loader. -/
theorem faithful_of_start (session : Session) (start : session.state.repository.Faithful)
    (calls : List Call) : (session.after calls).state.repository.Faithful :=
  (preserves_after (P := fun s => s.repository.Faithful)
    (keptByVisits_repository session.scene fun _ name faithful => faithful.tryLoad name)
    (fun _ faithful => faithful) start calls).1

/-- Two fresh sessions over one loader end with twins for repositories. -/
theorem twins_after (scene : Scene) (strategy : Strategy) (loader : Loader) (recordRetention : Bool)
    (calls calls' : List Call) :
    let session := fresh scene strategy loader recordRetention
    (session.after calls).state.repository.Twins (session.after calls').state.repository := by
  intro session
  have start : session.state.repository.Faithful := .fresh loader
  constructor
  case loader_eq =>
    have kept := (session.trail_after calls).grows.repository.loader_eq
    have kept' := (session.trail_after calls').grows.repository.loader_eq
    rw [kept, kept']
  case left => exact session.faithful_of_start start calls
  case right => exact session.faithful_of_start start calls'

/-- What calls reach, whether or not they fail, has its match among what other calls with the same
targets reach with success. -/
theorem Succeeds.within (h : (fresh scene strategy loader recordRetention).Succeeds calls')
    (plain : ∀ m, scene.program.overridden? m = none)
    (native : ∀ call ∈ calls', ∀ e ∈ call.entities, e.isForeign = false)
    (same : ∀ e, Given scene calls e → Given scene calls' e) :
    ((fresh scene strategy loader recordRetention).after calls).state.Within
      ((fresh scene strategy loader recordRetention).after calls').state := by
  obtain ⟨ordered, caused⟩ := caused_after scene strategy loader recordRetention calls
  have twins := twins_after scene strategy loader recordRetention calls calls'
  refine caused.within ordered (h.tended native) twins plain (fun root given => ?_)
    fun root given => ?_
  · obtain ⟨call, listed, target⟩ := exists_target_of_given
      (fresh scene strategy loader recordRetention) (same root given)
    exact native_of_mem_targets native listed target
  · obtain ⟨call, listed, target⟩ := exists_target_of_given
      (fresh scene strategy loader recordRetention) (same root given)
    exact h.isReached_target listed target

/-- Calls succeed if others with the same targets do. -/
theorem Succeeds.of_sameTargets
    (h : (fresh scene strategy loader recordRetention).Succeeds calls')
    (plain : ∀ m, scene.program.overridden? m = none)
    (native : ∀ call ∈ calls', ∀ e ∈ call.entities, e.isForeign = false)
    (same : ∀ e, Given scene calls e → Given scene calls' e) :
    (fresh scene strategy loader recordRetention).Succeeds calls := by
  by_cases ok : (fresh scene strategy loader recordRetention).Succeeds calls
  · exact ok
  · -- The entity whose rule fails has a match, and the rule of that one has been applied.
    obtain ⟨culprit, error, reached, fails⟩ := exists_failing ok
    obtain ⟨e', matching, reached'⟩ := h.within plain native same culprit reached
    obtain ⟨x, applied, -⟩ := (h.tended native).rule e' reached'
    obtain ⟨needs, asked, -⟩ := Scene.expand_eq_ok applied
    have twins := twins_after scene strategy loader recordRetention calls calls'
    rw [Scene.needs_of_matches twins matching] at asked
    cases (fails _).symm.trans asked

end Session

/-! ## What two passes agree on -/

/-- A foreign class of this name is reached. -/
def State.ReachesClass (s : State) (key : String) : Prop :=
  ∃ id, s.isReached (.foreignClass id) ∧ s.repository.answer? key = some (some id)

/-- The states have reached the same entities of the program, noted the same types as wrapped, and
reached the same foreign classes, each known by the one name under which it was loaded. -/
structure Agree (s s' : State) : Prop where
  native : ∀ e, e.isForeign = false → s.isReached e = s'.isReached e
  nullable : ∀ t, t ∈ s.nullable ↔ t ∈ s'.nullable
  named : ∀ id, s.isReached (.foreignClass id) → ∃! key, s.repository.answer? key = some (some id)
  named' : ∀ id, s'.isReached (.foreignClass id) →
    ∃! key, s'.repository.answer? key = some (some id)
  classes : ∀ key, s.ReachesClass key ↔ s'.ReachesClass key

theorem Entity.Matches.eq_of_native (h : e.Matches r r' e') (native : e.isForeign = false) :
    e' = e := by
  cases h with
  | native inside => rfl
  | foreignClass same => cases native
  | foreignMember kind position same => cases kind <;> cases native

theorem Entity.Matches.exists_sameClass {id : ClassId}
    (h : (Entity.foreignClass id).Matches r r' e') :
    ∃ id', e' = .foreignClass id' ∧ r.SameClass r' id id' := by
  generalize isClass : Entity.foreignClass id = e at h
  cases h with
  | native inside =>
    subst isClass
    cases inside
  | foreignClass same =>
    cases isClass
    exact ⟨_, rfl, same⟩
  | foreignMember kind position same => cases kind <;> cases isClass

section Agreement

variable {s s' : State}

theorem State.Within.isReached_native (h : s.Within s') (native : e.isForeign = false)
    (reached : s.isReached e) : s'.isReached e := by
  obtain ⟨e', matching, reached'⟩ := h e reached
  rwa [matching.eq_of_native native] at reached'

theorem State.Within.existsUnique_name (h : s.Within s') (faithful : s.repository.Faithful)
    {id : ClassId} (reached : s.isReached (.foreignClass id)) :
    ∃! key, s.repository.answer? key = some (some id) := by
  obtain ⟨e', matching, -⟩ := h _ reached
  obtain ⟨id', -, key, answered, -⟩ := matching.exists_sameClass
  exact ⟨key, answered, fun key' answered' => faithful.unique key' key id answered' answered⟩

theorem State.Within.reachesClass (h : s.Within s') (faithful : s.repository.Faithful)
    {key : String} (reaches : s.ReachesClass key) : s'.ReachesClass key := by
  obtain ⟨id, reached, answered⟩ := reaches
  obtain ⟨e', matching, reached'⟩ := h _ reached
  obtain ⟨id', rfl, key', answered', there⟩ := matching.exists_sameClass
  -- The match goes by some name; there is only one.
  rw [faithful.unique key key' id answered answered']
  exact ⟨id', reached', there⟩

theorem Agree.of_within {p : Program} (h : s.Within s') (h' : s'.Within s)
    (twins : s.repository.Twins s'.repository) (noted : s.NotesWrapped p)
    (noted' : s'.NotesWrapped p) : Agree s s' where
  native e native := by
    rw [Bool.eq_iff_iff]
    exact ⟨h.isReached_native native, h'.isReached_native native⟩
  nullable t := by
    rw [noted t, noted' t]
    constructor
    · rintro ⟨id, reached, wraps⟩
      exact ⟨id, h.isReached_native rfl reached, wraps⟩
    · rintro ⟨id, reached, wraps⟩
      exact ⟨id, h'.isReached_native rfl reached, wraps⟩
  named id := h.existsUnique_name twins.left
  named' id := h'.existsUnique_name twins.right
  classes key := ⟨h.reachesClass twins.left, h'.reachesClass twins.right⟩

end Agreement

/-- The order of the roots does not matter. In a program where no method overrides another one and
no method instantiates itself, marking roots and then the attributes of the program returns for all
lists of the same roots. It succeeds for all of them or for none, and what they reach agrees. The
loader is any with finitely many class descriptions: one whose classes have endlessly many ancestors
keeps a marking from returning as well. -/
theorem agree_of_sameRoots {scene : Scene} {strategy : Strategy} {loader : Loader}
    {recordRetention : Bool} {roots roots' : List Entity}
    (acyclic : ∀ m, ¬ Relation.TransGen scene.program.Instantiates m m)
    (plain : ∀ m, scene.program.overridden? m = none) (same : ∀ e, e ∈ roots ↔ e ∈ roots')
    (native : ∀ e ∈ roots, e.isForeign = false) :
    let session := Session.fresh scene strategy loader recordRetention
    let calls : List Call := [.markRoots roots, .walkProgramAttributes]
    let calls' : List Call := [.markRoots roots', .walkProgramAttributes]
    session.Returns calls ∧ session.Returns calls' ∧
      (session.Succeeds calls ↔ session.Succeeds calls') ∧
      (session.Succeeds calls →
        Agree (session.after calls).state (session.after calls').state) := by
  intro session calls calls'
  have inside : ∀ call ∈ calls, ∀ e ∈ call.entities, e.isForeign = false := by
    simpa [calls, Call.entities] using native
  have inside' : ∀ call ∈ calls', ∀ e ∈ call.entities, e.isForeign = false := by
    simpa [calls', Call.entities, ← same] using native
  have given (e : Entity) : Given scene calls e ↔ Given scene calls' e := by
    simp [Given, calls, calls', Call.entities, same]
  have forth : session.Succeeds calls → session.Succeeds calls' := fun succeeds =>
    succeeds.of_sameTargets plain inside fun e => (given e).2
  have back : session.Succeeds calls' → session.Succeeds calls := fun succeeds =>
    succeeds.of_sameTargets plain inside' fun e => (given e).1
  refine ⟨session.returns_of_acyclic acyclic calls, session.returns_of_acyclic acyclic calls',
    ⟨forth, back⟩, fun succeeds => ?_⟩
  apply Agree.of_within (p := scene.program)
  · exact (forth succeeds).within plain inside' fun e => (given e).1
  · exact succeeds.within plain inside fun e => (given e).2
  · exact Session.twins_after scene strategy loader recordRetention calls calls'
  · exact (Session.notesWrapped_after scene strategy loader recordRetention calls).1
  · exact (Session.notesWrapped_after scene strategy loader recordRetention calls').1

/-! ## Two orders -/

/-- Two types that stand for foreign classes, one of them the parent of the other, a method that
takes the first of them where it may be absent, and an instance of the method. -/
def signals : Program :=
  Program.rebuild {
    types := #[
      .definition { namespaceName := "App", name := "Port", foreignImport := some "acme.Port" },
      .definition { namespaceName := "App", name := "Device", foreignImport := some "acme.Device" },
      .definition { namespaceName := "System", name := "Nullable`1" },
      .specification (.genericInstance ⟨2⟩ [⟨0⟩]),
      .definition { namespaceName := "App", name := "Bus", methods := [⟨0⟩] },
      .definition { namespaceName := "System", name := "Void" }]
    methods := #[
      .definition {
        declaringType := ⟨4⟩, name := "Attach", returnType := ⟨5⟩, parameters := [⟨0⟩] },
      .instance ⟨0⟩ [⟨5⟩]]
    parameters := #[{ owner := .method ⟨0⟩, name := "port", parameterType := ⟨3⟩ }] }

/-- The classes behind `signals`. -/
def wiring : Loader :=
  .ofClasses [{ name := "acme/Port", superClass := some "acme/Device" }, { name := "acme/Device" }]

set_option maxRecDepth 4000 in
/-- Marking the roots of `signals` in two orders gives the classes behind them different handles. -/
theorem agree_signals :
    let session :=
      Session.fresh { program := signals, includes := fun _ => false } .recursive wiring true
    let calls : List Call :=
      [.markRoots [.type ⟨0⟩, .type ⟨1⟩, .method ⟨1⟩], .walkProgramAttributes]
    let calls' : List Call :=
      [.markRoots [.type ⟨1⟩, .method ⟨1⟩, .type ⟨0⟩, .type ⟨1⟩], .walkProgramAttributes]
    let final := (session.after calls).state
    let final' := (session.after calls').state
    session.Returns calls ∧ session.Returns calls' ∧
      session.Succeeds calls ∧ session.Succeeds calls' ∧ Agree final final' ∧
      final.repository.answer? "acme/Port" = some (some ⟨0⟩) ∧
      final'.repository.answer? "acme/Port" = some (some ⟨1⟩) ∧ final.nullable.toList = [⟨0⟩] := by
  intro session calls calls' final final'
  have tested := session.attempt_any calls 100
    (fun entries final => entries.all (·.1.isOk) &&
      final.state.repository.answer? "acme/Port" = some (some ⟨0⟩) &&
      final.state.nullable.toList = [⟨0⟩]) (by decide +kernel)
  have tested' := session.attempt_any calls' 100
    (fun entries final => final.state.repository.answer? "acme/Port" = some (some ⟨1⟩))
    (by decide +kernel)
  simp only [Bool.and_eq_true, decide_eq_true_eq] at tested tested'
  obtain ⟨⟨ok, port⟩, nullable⟩ := tested
  have succeeds := Session.succeeds_of_isOk ok
  have acyclic : ∀ m, ¬ Relation.TransGen signals.Instantiates m m := by
    intro m cycle
    have endless := Program.isEndless_iff.2 ⟨m, .refl, cycle⟩
    obtain ⟨_ | _ | n⟩ := m <;> cases endless
  have plain : ∀ m, session.scene.program.overridden? m = none := by
    rintro ⟨_ | _ | n⟩ <;> rfl
  have same : ∀ e, e ∈ ([.type ⟨0⟩, .type ⟨1⟩, .method ⟨1⟩] : List Entity) ↔
      e ∈ ([.type ⟨1⟩, .method ⟨1⟩, .type ⟨0⟩, .type ⟨1⟩] : List Entity) := by
    grind
  obtain ⟨returns, returns', both, agreed⟩ : session.Returns calls ∧ session.Returns calls' ∧
      (session.Succeeds calls ↔ session.Succeeds calls') ∧
      (session.Succeeds calls → Agree final final') :=
    agree_of_sameRoots acyclic plain same (by decide)
  exact ⟨returns, returns', succeeds, both.1 succeeds, agreed succeeds, port, tested', nullable⟩

/-! ## A method that instantiates itself -/

/-- A generic type without the support that it relies on, and a method that is an instance of
itself. -/
def lopsided : Program :=
  Program.rebuild {
    types := #[
      .definition { namespaceName := "App", name := "Box`1", genericParameters := [⟨0⟩] },
      .genericParameter ⟨0⟩]
    methods := #[.instance ⟨0⟩ []]
    genericParameters := #[{ owner := .type ⟨0⟩, name := "T" }] }

/-- With the type first the roots of `lopsided` are refused, with the method first they are never
done: the question for its owner does not return. -/
theorem returns_lopsided :
    let session :=
      Session.fresh { program := lopsided, includes := fun _ => false } .worklist .empty true
    let calls : List Call := [.markRoots [.type ⟨0⟩, .method ⟨0⟩], .walkProgramAttributes]
    let calls' : List Call := [.markRoots [.method ⟨0⟩, .type ⟨0⟩], .walkProgramAttributes]
    (∀ m, lopsided.overridden? m = none) ∧ session.Returns calls ∧ ¬ session.Succeeds calls ∧
      ¬ session.Returns calls' := by
  intro session calls calls'
  have plain : ∀ m, lopsided.overridden? m = none := by
    rintro ⟨_ | n⟩ <;> rfl
  have refused : ∃ error next, session.perform? (.markRoots [.type ⟨0⟩, .method ⟨0⟩]) =
      some (.error error, next) ∧ next.Returns [.walkProgramAttributes] := by
    have stop : Stop session.scene (start (session.countRoot (.type ⟨0⟩)).state (.type ⟨0⟩))
        (.failed (.missingType "Compiler.Internal.TypeHelper") _) :=
      .failed (by decide +kernel) (by decide +kernel) rfl
    refine ⟨_, _, Session.markEach?_of_stop stop (by decide +kernel), ?_⟩
    exact ⟨_, rfl, trivial⟩
  obtain ⟨error, next, performed, later⟩ := refused
  refine ⟨plain, ⟨_, performed, later⟩, fun succeeds => ?_, ?_⟩
  · have ok := (Session.succeeds_cons.1 succeeds).1
    rw [(Session.perform?_eq_some_iff.1 performed).1] at ok
    cases ok
  · rintro ⟨result, performed', -⟩
    have stuck : session.perform? (.markRoots [.method ⟨0⟩, .type ⟨0⟩]) = none :=
      Session.markEach?_of_isStuck (by decide +kernel)
    cases stuck.symm.trans performed'

end Liveset
