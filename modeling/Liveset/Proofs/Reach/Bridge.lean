import Liveset.Proofs.Reach.Provenance

/-!
# The bridge to the foreign classes

A definition of the program may stand for a member of a foreign class, which it names by class, name
and descriptor. `Repository.fate` says what becomes of such an import in a repository: its class
cannot be loaded, or has the member, or lacks it. In a pass that succeeds the rule of the definition
asks for the class and the member accordingly, and complains of a member that is missing.

Foreign entities are reached in no other way. A foreign member is reached because some definition
stands for it. A foreign class is reached because a type or a member stands for it, or as a parent
of another one. And the diagnostics of the pass are the complaints of the reached definitions, in
the order in which they were reached (`Bridged`).
-/

set_option autoImplicit false

namespace Liveset

open Worklist

/-! ## What becomes of an import -/

/-- The members of a class, by kind. -/
def ClassFile.members (c : ClassFile) : ForeignKind → List ForeignMember
  | .field => c.fields
  | .method => c.methods

/-- The entity of a foreign member. -/
def ForeignKind.entity : ForeignKind → ClassId → Nat → Entity
  | .field => .foreignField
  | .method => .foreignMethod

/-- What becomes of an import. -/
inductive Fate where
  /-- Its class cannot be loaded. -/
  | absent
  /-- Its class has the member, at this position first. -/
  | found (id : ClassId) (position : Nat)
  /-- Its class lacks the member. -/
  | missing (id : ClassId)
deriving DecidableEq, Inhabited, Repr

namespace Fate

/-- The foreign entities that an import asks for. -/
def targets (kind : ForeignKind) : Fate → List Entity
  | .absent => []
  | .found id position => [.foreignClass id, kind.entity id position]
  | .missing id => [.foreignClass id]

/-- The diagnostic that an import leaves. -/
def complaint? (imported : MemberImport) (requester : Entity) : Fate → Option Diagnostic
  | .missing _ => some (.foreignMemberNotFound imported requester)
  | _ => none

end Fate

/-- What becomes of an import in a repository. -/
def Repository.fate (r : Repository) (kind : ForeignKind) (imported : MemberImport) : Fate :=
  match (r.tryLoad imported.className).1 with
  | none => .absent
  | some id =>
    match (r.class? id).bind fun c =>
      (c.members kind).idxOf? ⟨imported.memberName, imported.descriptor⟩ with
    | some position => .found id position
    | none => .missing id

namespace Program

/-- The foreign member that an entity stands for: a method definition for a method, a field
definition for a field. -/
def import? (p : Program) : Entity → Option (ForeignKind × MemberImport)
  | .method id => ((p.methodDefinition? id).bind (·.imported)).map (.method, ·)
  | .field id => ((p.fieldDefinition? id).bind (·.imported)).map (.field, ·)
  | _ => none

/-- The entity refers to a foreign class by name: a type that stands for it, or a class that has it
as a parent. -/
def RefersTo (p : Program) (r : Repository) : Entity → String → Prop
  | .type id, name => (p.typeDefinition? id).bind (·.foreignImport) = some name
  | .foreignClass id, name => ∃ c, r.class? id = some c ∧ name ∈ c.parents
  | _, _ => False

/-- The diagnostic that an entity leaves, if it stands for a member that its class lacks. -/
def complaint? (p : Program) (r : Repository) (e : Entity) : Option Diagnostic :=
  (p.import? e).bind fun imported => (r.fate imported.1 imported.2).complaint? imported.2 e

end Program

/-- The foreign entity that a step names. -/
def Step.foreignTarget? : Step → Option Entity
  | .mark target => if target.isForeign then some target else none
  | .markOverridden _ => none

/-- The foreign entities that the steps of an expansion name. -/
def Expansion.foreignTargets (x : Expansion) : List Entity := x.steps.filterMap Step.foreignTarget?

theorem Expansion.mem_foreignTargets {x : Expansion} {target : Entity} :
    target ∈ x.foreignTargets ↔ .mark target ∈ x.steps ∧ target.isForeign := by
  simp only [foreignTargets, List.mem_filterMap]
  constructor
  · rintro ⟨step, listed, named⟩
    cases step with
    | mark other =>
      obtain ⟨foreign, same⟩ := Option.ite_none_right_eq_some.1 named
      cases same
      exact ⟨listed, foreign⟩
    | markOverridden method => cases named
  · rintro ⟨listed, foreign⟩
    exact ⟨_, listed, if_pos foreign⟩

theorem ForeignKind.isForeign_entity (kind : ForeignKind) (id : ClassId) (position : Nat) :
    (kind.entity id position).isForeign := by
  cases kind <;> rfl

theorem Repository.fate_cases (r : Repository) (kind : ForeignKind) (imported : MemberImport) :
    ((r.tryLoad imported.className).1 = none ∧ r.fate kind imported = .absent) ∨
    ∃ id, (r.tryLoad imported.className).1 = some id ∧
      (r.fate kind imported = .missing id ∨
        ∃ position, r.fate kind imported = .found id position) := by
  unfold fate
  cases (r.tryLoad imported.className).1 with
  | none => exact .inl ⟨rfl, rfl⟩
  | some id =>
    refine .inr ⟨id, rfl, ?_⟩
    dsimp only
    cases (r.class? id).bind fun c =>
        (c.members kind).idxOf? ⟨imported.memberName, imported.descriptor⟩ with
    | none => exact .inl rfl
    | some position => exact .inr ⟨position, rfl⟩

/-- Among the targets of an import, the members are those that are found. -/
theorem Fate.eq_found_of_mem_targets {fate : Fate} {kind kind' : ForeignKind} {id : ClassId}
    {position : Nat} (h : kind.entity id position ∈ fate.targets kind') :
    kind' = kind ∧ fate = .found id position := by
  cases fate <;> cases kind <;> cases kind' <;> simp_all [targets, ForeignKind.entity]

/-- The targets of an import are its class and a member of it. -/
theorem Repository.tryLoad_of_mem_targets {r : Repository} {kind : ForeignKind}
    {imported : MemberImport} {target : Entity}
    (wanted : target ∈ (r.fate kind imported).targets kind) :
    ∃ id, (r.tryLoad imported.className).1 = some id ∧
      (target = .foreignClass id ∨ ∃ position, target = kind.entity id position) := by
  rcases r.fate_cases kind imported with ⟨-, fate⟩ | ⟨id, loads, fate | ⟨position, fate⟩⟩ <;>
    rw [fate] at wanted
  · cases wanted
  · exact ⟨id, loads, .inl (List.mem_singleton.1 wanted)⟩
  · refine ⟨id, loads, ?_⟩
    rcases List.mem_cons.1 wanted with rfl | member
    · exact .inl rfl
    · exact .inr ⟨position, List.mem_singleton.1 member⟩

/-! ## Crossing the border -/

namespace Need

variable {r : Repository} {need : Need} {e : Entity}

theorem foreignTarget?_eq (r : Repository) (kind : ForeignKind) (imported : MemberImport)
    (id : ClassId) :
    foreignTarget? r kind imported id =
      ((r.class? id).bind fun c =>
        (c.members kind).idxOf? ⟨imported.memberName, imported.descriptor⟩).map
          (kind.entity id) := by
  cases kind <;> rfl

/-- A settled import is met as its fate says. -/
theorem meet_foreignMember {kind : ForeignKind} {imported : MemberImport} {requester : Entity}
    (settled : (foreignMember kind imported requester).Settled r) :
    (foreignMember kind imported requester).meet r =
      { steps := ((r.fate kind imported).targets kind).map .mark
        repository := r
        diagnostics := ((r.fate kind imported).complaint? imported requester).toList } := by
  --  The request for the class changes nothing, so the member is looked up in the repository as it
  -- is.
  have same : (r.tryLoad imported.className).2 = r := by
    rw [Settled, repository_meet] at settled
    exact settled
  rcases loading : r.tryLoad imported.className with ⟨_ | id, r₁⟩
  · obtain rfl : r₁ = r := by rw [← same, loading]
    simp [meet, Repository.fate, loading, Fate.targets, Fate.complaint?]
  · obtain rfl : r₁ = r := by rw [← same, loading]
    simp only [meet, Repository.fate, loading, foreignTarget?_eq]
    cases (r₁.class? id).bind fun c =>
      (c.members kind).idxOf? ⟨imported.memberName, imported.descriptor⟩ <;> rfl

/-- All that the fate of an import asks for is foreign. -/
theorem foreignTargets_meet_foreignMember {kind : ForeignKind} {imported : MemberImport}
    {requester : Entity} (settled : (foreignMember kind imported requester).Settled r) :
    ((foreignMember kind imported requester).meet r).foreignTargets =
      (r.fate kind imported).targets kind := by
  rw [meet_foreignMember settled, Expansion.foreignTargets]
  cases r.fate kind imported with
  | absent => rfl
  | missing id => rfl
  | found id position => cases kind <;> rfl

/-- A foreign class is asked for if it can be loaded, and without complaint if not. -/
theorem meet_foreignClass (r : Repository) (name : String) :
    (foreignClass name).meet r =
      { steps := (r.tryLoad name).1.toList.map fun id => .mark (.foreignClass id)
        repository := (r.tryLoad name).2 } := by
  rcases loading : r.tryLoad name with ⟨_ | id, r₁⟩ <;> simp [meet, loading]

/-- A domestic need has no part in what lies outside the program. -/
theorem Domestic.meet (h : need.Domestic e) :
    (need.meet r).foreignTargets = [] ∧ (need.meet r).diagnostics = [] := by
  cases need with
  | entity target =>
    have inside : target.isForeign = false := h
    exact ⟨by simp [Need.meet, Expansion.foreignTargets, Step.foreignTarget?, inside], rfl⟩
  | overridden method => exact ⟨rfl, rfl⟩
  | _ => exact h.elim

end Need

namespace Scene

variable {scene : Scene} {r : Repository} {e : Entity} {x : Expansion}

theorem crossings_of_import {kind : ForeignKind} {imported : MemberImport}
    (h : scene.program.import? e = some (kind, imported)) :
    scene.crossings r e = [.foreignMember kind imported e] := by
  cases e with
  | method id | field id =>
    obtain ⟨i, found, same⟩ := Option.map_eq_some_iff.1 h
    cases same
    rw [crossings, found]
    rfl
  | _ => cases h

theorem mem_crossings_of_not_import (h : scene.program.import? e = none) {need : Need}
    (crossing : need ∈ scene.crossings r e) :
    ∃ name, need = .foreignClass name ∧ scene.program.RefersTo r e name := by
  cases e with
  | type id =>
    obtain ⟨name, found, rfl⟩ := List.mem_map.1 crossing
    exact ⟨name, rfl, Option.mem_toList.1 found⟩
  | method id | field id =>
    rw [Program.import?, Option.map_eq_none_iff] at h
    rw [crossings, h] at crossing
    cases crossing
  | foreignClass id =>
    cases found : r.class? id with
    | none => simp [crossings, found] at crossing
    | some c =>
      obtain ⟨name, parent, rfl⟩ : ∃ name ∈ c.parents, Need.foreignClass name = need := by
        simpa [crossings, found] using crossing
      exact ⟨name, rfl, c, found, parent⟩
  | _ => cases crossing

/-- What a rule that loads nothing has to do with foreign classes comes from its crossings. -/
theorem crossings_of_settled (h : scene.expand r e = .ok x) (same : x.repository = r) :
    (∀ need ∈ scene.crossings r e, need.Settled r) ∧
      x.foreignTargets = (scene.crossings r e).flatMap (fun need => (need.meet r).foreignTargets) ∧
      x.diagnostics = (scene.crossings r e).flatMap fun need => (need.meet r).diagnostics := by
  obtain ⟨needs, asked, settled, steps, diagnostics⟩ := expand_of_settled h same
  have enclosed := encloses_of_needs asked
  refine ⟨fun need crossing => settled need (enclosed.subset crossing), ?_, ?_⟩
  · rw [Expansion.foreignTargets, steps, List.filterMap_flatMap]
    exact enclosed.flatMap_eq fun need domestic => domestic.meet.1
  · rw [diagnostics]
    exact enclosed.flatMap_eq fun need domestic => domestic.meet.2

/-- The rule of an entity that stands for a foreign member asks for what the fate of the import
says. -/
theorem foreignTargets_of_import {kind : ForeignKind} {imported : MemberImport}
    (imports : scene.program.import? e = some (kind, imported)) (h : scene.expand r e = .ok x)
    (same : x.repository = r) : x.foreignTargets = (r.fate kind imported).targets kind := by
  obtain ⟨settled, targets, -⟩ := crossings_of_settled h same
  rw [crossings_of_import imports] at settled targets
  rw [targets, List.flatMap_singleton]
  exact Need.foreignTargets_meet_foreignMember (settled _ List.mem_cons_self)

/-- Any other rule asks for the foreign classes that its entity refers to. -/
theorem exists_refersTo_of_mem_foreignTargets (imports : scene.program.import? e = none)
    (h : scene.expand r e = .ok x) (same : x.repository = r) {target : Entity}
    (wanted : target ∈ x.foreignTargets) :
    ∃ name id, scene.program.RefersTo r e name ∧ (r.tryLoad name).1 = some id ∧
      target = .foreignClass id := by
  rw [(crossings_of_settled h same).2.1] at wanted
  obtain ⟨need, crossing, wanted⟩ := List.mem_flatMap.1 wanted
  obtain ⟨name, rfl, refers⟩ := mem_crossings_of_not_import imports crossing
  rw [Expansion.mem_foreignTargets, Need.meet_foreignClass] at wanted
  obtain ⟨id, loads, same⟩ := List.mem_map.1 wanted.1
  cases same
  exact ⟨name, id, refers, Option.mem_toList.1 loads, rfl⟩

/-- A rule that loads nothing complains of the member that its entity stands for in vain, and of
nothing else. -/
theorem diagnostics_of_settled (h : scene.expand r e = .ok x) (same : x.repository = r) :
    x.diagnostics = (scene.program.complaint? r e).toList := by
  obtain ⟨settled, -, diagnostics⟩ := crossings_of_settled h same
  rw [diagnostics, Program.complaint?]
  cases imports : scene.program.import? e with
  | none =>
    refine List.flatMap_eq_nil_iff.2 fun need crossing => ?_
    obtain ⟨name, rfl, -⟩ := mem_crossings_of_not_import imports crossing
    rw [Need.meet_foreignClass]
  | some imported =>
    rw [crossings_of_import imports] at settled ⊢
    rw [List.flatMap_singleton, Need.meet_foreignMember (settled _ List.mem_cons_self)]
    rfl

/-- Once a rule has been applied, its diagnostics are the complaint of its entity ever after. -/
theorem diagnostics_of_extends {r' : Repository} (consistent : r.Consistent) (loaded : e.Loaded r)
    (h : scene.expand r e = .ok x) (grown : x.repository.Extends r') :
    x.diagnostics = (scene.program.complaint? r' e).toList := by
  have again := expand_of_extends consistent loaded h grown
  exact diagnostics_of_settled (x := { x with repository := r' }) again rfl

end Scene

/-! ## Diagnostics along a run -/

variable {scene : Scene} {m m' : Machine}

/-- The diagnostics are the complaints of the reached entities, in their order. -/
structure Reported (scene : Scene) (m : Machine) : Prop extends Tended scene m where
  ordered : m.state.Ordered
  diagnostics : m.state.diagnostics.toList =
    m.state.order.toList.flatMap fun e => (scene.program.complaint? m.state.repository e).toList

theorem Reported.move (h : Reported scene m) (move : Move scene m m') : Reported scene m' := by
  have tended := h.toTended.move move
  cases move with
  | @visit s s' source e steps below new free visited =>
    have free := State.unreachedOwner?_eq_none.1 free
    refine ⟨tended, keptByVisits_ordered scene s s' source e _ visited new free h.ordered, ?_⟩
    obtain ⟨x, applied, rfl, same⟩ := State.visit_eq_ok visited
    have grown := (State.grows_visit visited).repository
    -- Loading more classes changes no complaint that was made before.
    have kept : ∀ e' ∈ s.order.toList, (scene.program.complaint? s.repository e').toList =
        (scene.program.complaint? s'.repository e').toList := by
      intro e' listed
      have reached := (h.ordered.mem_iff e').1 listed
      obtain ⟨x', applied', same', -⟩ := h.rule e' reached
      rw [← Scene.diagnostics_of_settled applied' same']
      exact Scene.diagnostics_of_extends h.consistent (h.loaded e' reached) applied' (same' ▸ grown)
    have loaded : e.Loaded s.repository := h.asked _ List.mem_cons_self e rfl
    have now : x.diagnostics = (scene.program.complaint? s'.repository e).toList :=
      Scene.diagnostics_of_extends h.consistent loaded applied (same ▸ .refl _)
    rw [State.diagnostics_visit visited applied, State.order_visit visited, Array.toList_push,
      List.flatMap_append, List.flatMap_singleton, h.diagnostics, List.flatMap_congr kept, now]
  | _ => exact ⟨tended, h.ordered, h.diagnostics⟩

/-- Calls that succeed, and are given no foreign entity, leave the complaints of what they reach. -/
theorem Session.Succeeds.reported {strategy : Strategy} {loader : Loader} {recordRetention : Bool}
    {calls : List Call} (h : (fresh scene strategy loader recordRetention).Succeeds calls)
    (native : ∀ call ∈ calls, ∀ e ∈ call.entities, e.isForeign = false) :
    Reported scene ⟨((fresh scene strategy loader recordRetention).after calls).state, []⟩ := by
  refine (h.keeps Reported.move (fun s e target reported => ?_) (fun s reported => ?_) ?_).1
  · obtain ⟨call, listed, target⟩ := target
    have loaded : e.Loaded s.repository :=
      Entity.loaded_of_not_foreign (native_of_mem_targets native listed target)
    exact ⟨reported.toTended.begin loaded, reported.ordered, reported.diagnostics⟩
  · have tended := reported.toTended
    exact ⟨⟨tended.consistent, tended.loaded, tended.asked, tended.owner, tended.rule⟩,
      reported.ordered.countRoot, reported.diagnostics⟩
  · exact ⟨tended_fresh scene strategy loader recordRetention,
      ordered_fresh scene strategy loader recordRetention, rfl⟩

/-! ## Where foreign entities come from -/

/-- On the way to a foreign entity stand the entity itself and, if it is a member, its class. -/
theorem Program.OnTheWay.foreign {p : Program} {target e : Entity} (h : p.OnTheWay target e)
    (foreign : target.isForeign) :
    e = target ∨ ∃ kind id position, target = ForeignKind.entity kind id position ∧
      e = .foreignClass id := by
  rcases h with rfl | owned | ⟨owner, owned, higher⟩
  · exact .inl rfl
  · cases target
    case foreignClass => cases owned
    case foreignField id position =>
      cases owned
      exact .inr ⟨.field, id, position, rfl, rfl⟩
    case foreignMethod id position =>
      cases owned
      exact .inr ⟨.method, id, position, rfl, rfl⟩
    all_goals cases foreign
  · cases target
    case foreignClass => cases owned
    case foreignField | foreignMethod =>
      cases owned
      cases higher
    all_goals cases foreign

section Sources

variable {roots : Entity → Prop} {s : State}

/-- A foreign entity is reached on the way to something that the rule of a reached entity asks for,
unless a root is foreign. -/
theorem State.Caused.exists_source (h : s.Caused scene roots) (ordered : s.Ordered)
    (native : ∀ root, roots root → root.isForeign = false) {e : Entity} (reached : s.isReached e)
    (foreign : e.isForeign) :
    ∃ origin x target, s.isReached origin ∧ scene.expand s.repository origin = .ok x ∧
      x.repository = s.repository ∧ target ∈ x.foreignTargets ∧
        scene.program.OnTheWay target e := by
  obtain ⟨source, cause, precedes⟩ := h e reached
  cases source with
  | none =>
    obtain ⟨root, given, way⟩ := cause
    have inside := way.isForeign_eq.trans (native root given)
    rw [foreign] at inside
    cases inside
  | some origin =>
    obtain ⟨target, asks, way⟩ := cause
    have outside : target.isForeign := way.isForeign_eq ▸ foreign
    rcases asks with ⟨x, applied, same, listed⟩ | ⟨method, base, -, -, -, rfl⟩
    · refine ⟨origin, x, target, ?_, applied, same, ?_, way⟩
      · exact ordered.isReached_of_precedes (precedes origin rfl)
      · exact Expansion.mem_foreignTargets.2 ⟨listed, outside⟩
    · cases outside

/-- A reached foreign member is what some reached definition stands for. -/
theorem State.Caused.exists_import (h : s.Caused scene roots) (ordered : s.Ordered)
    (native : ∀ root, roots root → root.isForeign = false) {kind : ForeignKind} {id : ClassId}
    {position : Nat} (reached : s.isReached (kind.entity id position)) :
    ∃ e imported, s.isReached e ∧ scene.program.import? e = some (kind, imported) ∧
      s.repository.fate kind imported = .found id position := by
  obtain ⟨origin, x, target, known, applied, same, wanted, way⟩ :=
    h.exists_source ordered native reached (kind.isForeign_entity id position)
  -- Nothing but the member itself comes to the member.
  have direct : target = kind.entity id position := by
    rcases way.foreign (Expansion.mem_foreignTargets.1 wanted).2 with rfl | ⟨_, _, _, -, isClass⟩
    · rfl
    · cases kind <;> cases isClass
  subst direct
  cases imports : scene.program.import? origin with
  | none =>
    obtain ⟨_, _, -, -, isClass⟩ :=
      Scene.exists_refersTo_of_mem_foreignTargets imports applied same wanted
    cases kind <;> cases isClass
  | some imported =>
    obtain ⟨kind', i⟩ := imported
    rw [Scene.foreignTargets_of_import imports applied same] at wanted
    obtain ⟨rfl, found⟩ := Fate.eq_found_of_mem_targets wanted
    exact ⟨origin, i, known, imports, found⟩

/-- A reached foreign class is one that some reached entity refers to, or the class of what it
stands for. -/
theorem State.Caused.exists_reference (h : s.Caused scene roots) (ordered : s.Ordered)
    (native : ∀ root, roots root → root.isForeign = false) {id : ClassId}
    (reached : s.isReached (.foreignClass id)) :
    ∃ e name, s.isReached e ∧ (s.repository.tryLoad name).1 = some id ∧
      (scene.program.RefersTo s.repository e name ∨ ∃ kind imported,
        scene.program.import? e = some (kind, imported) ∧ imported.className = name) := by
  obtain ⟨origin, x, target, known, applied, same, wanted, way⟩ :=
    h.exists_source ordered native reached rfl
  have inside := way.foreign (Expansion.mem_foreignTargets.1 wanted).2
  cases imports : scene.program.import? origin with
  | none =>
    obtain ⟨name, other, refers, loads, rfl⟩ :=
      Scene.exists_refersTo_of_mem_foreignTargets imports applied same wanted
    rcases inside with isClass | ⟨kind, _, _, isMember, -⟩
    · cases isClass
      exact ⟨origin, name, known, loads, .inl refers⟩
    · cases kind <;> cases isMember
  | some imported =>
    obtain ⟨kind, i⟩ := imported
    rw [Scene.foreignTargets_of_import imports applied same] at wanted
    obtain ⟨other, loads, isTarget⟩ := Repository.tryLoad_of_mem_targets wanted
    -- The class is the target itself or has the target among its members.
    have same : other = id := by
      rcases inside with rfl | ⟨kind', _, _, rfl, isClass⟩
      · rcases isTarget with isClass | ⟨position, isMember⟩
        · cases isClass
          rfl
        · cases kind <;> cases isMember
      · cases isClass
        rcases isTarget with isClass | ⟨position, isMember⟩
        · cases kind' <;> cases isClass
        · cases kind <;> cases kind' <;> cases isMember <;> rfl
    subst same
    exact ⟨origin, _, known, loads, .inr ⟨kind, i, imports, rfl⟩⟩

end Sources

/-- The bridge to the foreign classes is exact. -/
structure Bridged (scene : Scene) (s : State) : Prop where
  /-- The rule of a definition that stands for a foreign member asks for the foreign entities that
  the fate of the import says, and complains accordingly. -/
  rule : ∀ e kind imported, s.isReached e → scene.program.import? e = some (kind, imported) →
    ∃ x, scene.expand s.repository e = .ok x ∧ x.repository = s.repository ∧
      x.foreignTargets = (s.repository.fate kind imported).targets kind ∧
      x.diagnostics = ((s.repository.fate kind imported).complaint? imported e).toList
  /-- Those foreign entities are reached. -/
  reached : ∀ e kind imported, s.isReached e → scene.program.import? e = some (kind, imported) →
    ∀ target ∈ (s.repository.fate kind imported).targets kind, s.isReached target
  /-- The diagnostics are the complaints of the reached entities, in their order. -/
  diagnostics : s.diagnostics.toList =
    s.order.toList.filterMap (scene.program.complaint? s.repository)
  /-- A reached foreign member is what some reached definition stands for. -/
  memberSource : ∀ kind id position, s.isReached (ForeignKind.entity kind id position) →
    ∃ e imported, s.isReached e ∧ scene.program.import? e = some (kind, imported) ∧
      s.repository.fate kind imported = .found id position
  /-- A reached foreign class is one that some reached entity refers to, or the class of what it
  stands for. -/
  classSource : ∀ id, s.isReached (.foreignClass id) →
    ∃ e name, s.isReached e ∧ (s.repository.tryLoad name).1 = some id ∧
      (scene.program.RefersTo s.repository e name ∨
        ∃ kind imported, scene.program.import? e = some (kind, imported) ∧
          imported.className = name)

/-- Calls that succeed, and are given no foreign entity, cross the border of the program where
imports and parents of classes lead across it, and nowhere else. -/
theorem bridged_of_succeeds {scene : Scene} {strategy : Strategy} {loader : Loader}
    {recordRetention : Bool} {calls : List Call}
    (succeeds : (Session.fresh scene strategy loader recordRetention).Succeeds calls)
    (native : ∀ call ∈ calls, ∀ e ∈ call.entities, e.isForeign = false) :
    Bridged scene ((Session.fresh scene strategy loader recordRetention).after calls).state := by
  have reported := succeeds.reported native
  obtain ⟨ordered, caused⟩ :=
    Session.caused_after scene strategy loader recordRetention calls
  have nativeRoots : ∀ root, Given scene calls root → root.isForeign = false := by
    rintro root (⟨call, listed, given⟩ | ⟨-, id, -, -, rfl⟩)
    · exact native call listed root given
    · rfl
  constructor
  case rule =>
    intro e kind imported reached imports
    obtain ⟨x, applied, same, -⟩ := reported.rule e reached
    refine ⟨x, applied, same, Scene.foreignTargets_of_import imports applied same, ?_⟩
    rw [Scene.diagnostics_of_settled applied same, Program.complaint?, imports]
    rfl
  case reached =>
    intro e kind imported reached imports target wanted
    obtain ⟨x, applied, same, steps⟩ := reported.rule e reached
    rw [← Scene.foreignTargets_of_import imports applied same] at wanted
    exact due_nil.1 (steps target (Expansion.mem_foreignTargets.1 wanted).1)
  case diagnostics =>
    rw [List.filterMap_eq_flatMap_toList]
    exact reported.diagnostics
  case memberSource => exact fun kind id position => caused.exists_import ordered nativeRoots
  case classSource => exact fun id => caused.exists_reference ordered nativeRoots

/-! ## Imports of every fate -/

/-- A type that stands for a foreign class, with members that are found there and members that are
not. The class behind `Beep` does not exist. -/
def console : Program :=
  let imports (className memberName descriptor : String) : Option MemberImport :=
    some { className, memberName, descriptor }
  Program.rebuild {
    types := #[
      .definition
        { namespaceName := "App", name := "Console", methods := [⟨0⟩, ⟨1⟩, ⟨2⟩],
          fields := [⟨0⟩, ⟨1⟩], foreignImport := some "acme.Console" },
      .definition { namespaceName := "System", name := "Void" }]
    methods := #[
      .definition
        { declaringType := ⟨0⟩, name := "Write", returnType := ⟨1⟩
          imported := imports "acme.Console" "write" "(I)V" },
      .definition
        { declaringType := ⟨0⟩, name := "Flush", returnType := ⟨1⟩
          imported := imports "acme.Console" "flush" "(I)V" },
      .definition
        { declaringType := ⟨0⟩, name := "Beep", returnType := ⟨1⟩
          imported := imports "acme.Speaker" "beep" "()V" }]
    fields := #[
      .definition
        { declaringType := ⟨0⟩, name := "Width", fieldType := ⟨1⟩
          imported := imports "acme/Console" "width" "I" },
      .definition
        { declaringType := ⟨0⟩, name := "Height", fieldType := ⟨1⟩
          imported := imports "acme/Console" "height" "J" }] }

/-- The class behind `console` has one method twice, and a parent. -/
def terminal : Loader :=
  .ofClasses [
    { name := "acme/Console", superClass := some "acme/Stream"
      fields := [⟨"width", "I"⟩, ⟨"height", "I"⟩]
      methods := [⟨"flush", "()V"⟩, ⟨"write", "(I)V"⟩, ⟨"write", "(I)V"⟩] },
    { name := "acme/Stream" }]

set_option maxRecDepth 4000 in
/-- Marking the members of `console`, those that are not found among them. -/
theorem bridged_console :
    let session :=
      Session.fresh { program := console, includes := fun _ => false } .worklist terminal false
    let calls : List Call :=
      [.markRoots [.field ⟨1⟩, .method ⟨2⟩, .method ⟨1⟩], .markRoots [.method ⟨0⟩, .field ⟨0⟩]]
    let final := (session.after calls).state
    session.Succeeds calls ∧ Bridged session.scene final ∧
      final.order.toList.filter (·.isForeign) =
        [.foreignClass ⟨0⟩, .foreignClass ⟨1⟩, .foreignMethod ⟨0⟩ 1, .foreignField ⟨0⟩ 0] ∧
      final.diagnostics.toList =
        [.foreignMemberNotFound ⟨"acme/Console", "height", "J"⟩ (.field ⟨1⟩),
          .foreignMemberNotFound ⟨"acme.Console", "flush", "(I)V"⟩ (.method ⟨1⟩)] := by
  intro session calls final
  have tested := session.attempt_any calls 100
    (fun entries final => entries.all (·.1.isOk) && final.state.order.toList.filter (·.isForeign) =
        [.foreignClass ⟨0⟩, .foreignClass ⟨1⟩, .foreignMethod ⟨0⟩ 1, .foreignField ⟨0⟩ 0] &&
      final.state.diagnostics.toList =
        [.foreignMemberNotFound ⟨"acme/Console", "height", "J"⟩ (.field ⟨1⟩),
          .foreignMemberNotFound ⟨"acme.Console", "flush", "(I)V"⟩ (.method ⟨1⟩)])
    (by decide +kernel)
  simp only [Bool.and_eq_true, decide_eq_true_eq] at tested
  obtain ⟨⟨ok, foreign⟩, diagnostics⟩ := tested
  have succeeds := Session.succeeds_of_isOk ok
  exact ⟨succeeds, bridged_of_succeeds succeeds (by decide), foreign, diagnostics⟩

end Liveset
