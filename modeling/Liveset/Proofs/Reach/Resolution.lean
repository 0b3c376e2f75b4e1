import Liveset.Proofs.Program.Denotation
import Liveset.Proofs.Reach.Bookkeeping
import Liveset.Proofs.Reach.Evaluation
import Liveset.Proofs.Reach.Heeding
import Liveset.Proofs.Reach.Leading

/-!
# Reached entities denote reached definitions

A pass goes from node to node, from a derived type to its element and from a reference to what it is
registered for, while resolution jumps to the end of such a chain. A pass that succeeds has walked
every chain that resolution jumps over: what a reached node denotes is reached, and so is the base
chain of a reached type (`ResolutionClosed`).
-/

set_option autoImplicit false

namespace Liveset

namespace State.Heeds

variable {scene : Scene} {s : State}

/-- An entity that the rule of a reached one names is reached. -/
theorem isReached_named (h : s.Heeds scene) {e target : Entity} (native : e.isForeign = false)
    (reached : s.isReached e)
    (named : ∀ needs, scene.needs s.repository e = .ok needs → .entity target ∈ needs) :
    s.isReached target := by
  obtain ⟨needs, asked, heeded⟩ := h e native reached
  exact heeded target (named needs asked)

theorem followsLeads (h : s.Heeds scene) : s.FollowsLeads scene.program := by
  intro id next reached leads
  refine h.isReached_named rfl reached fun needs asked => ?_
  obtain ⟨rest, rfl⟩ := Scene.needs_of_leading leads asked
  exact List.mem_cons_self

/-! ## The base chain -/

/-- The base type of a reached definition is reached, with generic parameters or without. -/
theorem isReached_baseReference (h : s.Heeds scene) {id base : TypeId}
    (reached : s.isReached (.type id)) (named : scene.program.baseReference? id = some base) :
    s.isReached (.type base) := by
  refine h.isReached_named rfl reached fun needs asked => ?_
  obtain ⟨d, defined, named⟩ := Option.bind_eq_some_iff.1 named
  rw [Scene.needs_typeDefinition defined] at asked
  obtain ⟨generic, special, -, -, rfl⟩ := Scene.typeDefinitionRule_eq_ok asked
  simp [Program.typeNeeds, named]

theorem isReached_of_mem_baseTypesFrom (h : s.Heeds scene) {fuel : Nat} {seen : List TypeId}
    {id target : TypeId} (reached : s.isReached (.type id))
    (member : target ∈ scene.program.baseTypesFrom fuel seen (scene.program.baseReference? id)) :
    s.isReached (.type target) := by
  induction fuel generalizing seen id with
  | zero => cases member
  | succ fuel ih =>
    rw [Program.baseTypesFrom] at member
    split at member
    · cases member
    · rename_i base denoted
      obtain ⟨reference, named, resolved⟩ := Option.bind_eq_some_iff.1 denoted
      have next : s.isReached (.type base) :=
        h.followsLeads.isReached_resolved (h.isReached_baseReference reached named) resolved
      split at member
      · cases member
      · rcases List.mem_cons.1 member with rfl | later
        · exact next
        · exact ih next later

/-! ## Members -/

theorem isReached_resolvedReference (h : s.Heeds scene) {id target : MethodId} {r : MethodReference}
    (reached : s.isReached (.method id)) (found : scene.program.method? id = some (.reference r))
    (resolved : scene.program.resolveMethodReference? r = some target) :
    s.isReached (.method target) := by
  refine h.isReached_named rfl reached fun needs asked => ?_
  have denoted : scene.program.resolveMethod? id = some target := by
    simpa only [Program.resolveMethod?, found] using resolved
  simp only [Scene.needs, Scene.methodRule, found, denoted] at asked
  cases asked
  simp [Support.needs]

/-- What a reached method denotes is reached. -/
theorem isReached_resolvedMethod (h : s.Heeds scene) {id target : MethodId}
    (reached : s.isReached (.method id))
    (resolved : scene.program.resolveMethod? id = some target) :
    s.isReached (.method target) := by
  rw [Program.resolveMethod?] at resolved
  split at resolved
  · cases resolved
    exact reached
  · rename_i r found
    exact h.isReached_resolvedReference reached found resolved
  · -- The rule of an instance names its element; from there it is as before.
    rename_i element arguments found
    have next : s.isReached (.method element) := by
      refine h.isReached_named rfl reached fun needs asked => ?_
      simp only [Scene.needs, Scene.methodRule, found] at asked
      cases asked
      exact List.mem_cons_self
    split at resolved
    · cases resolved
      exact next
    · rename_i r found
      exact h.isReached_resolvedReference next found resolved
    · cases resolved
  · cases resolved

/-- What a reached field denotes is reached. -/
theorem isReached_resolvedField (h : s.Heeds scene) {id target : FieldId}
    (reached : s.isReached (.field id)) (resolved : scene.program.resolveField? id = some target) :
    s.isReached (.field target) := by
  cases found : scene.program.field? id with
  | none =>
    simp only [Program.resolveField?, found] at resolved
    cases resolved
  | some node =>
    cases node with
    | definition d =>
      simp only [Program.resolveField?, found] at resolved
      cases resolved
      exact reached
    | reference r =>
      refine h.isReached_named rfl reached fun needs asked => ?_
      simp only [Scene.needs, Scene.fieldRule, found, resolved] at asked
      cases asked
      simp

end State.Heeds

/-! ## Closure -/

/-- What reached nodes denote is reached. The definitions of types, also those on the base chains,
are among the listed types. -/
structure ResolutionClosed (p : Program) (s : State) : Prop where
  type : ∀ id target, s.isReached (.type id) → p.resolveType? id = some target →
    s.isReached (.type target) ∧ target ∈ s.types
  method : ∀ id target, s.isReached (.method id) → p.resolveMethod? id = some target →
    s.isReached (.method target)
  field : ∀ id target, s.isReached (.field id) → p.resolveField? id = some target →
    s.isReached (.field target)
  base : ∀ id, s.isReached (.type id) → ∀ target ∈ p.baseTypes id, target ∈ s.types

/-- Closure under resolution. In a program that was read from a document, calls that all succeed
leave a set of reached entities in which every chain that resolution follows has been walked to its
end. -/
theorem resolutionClosed_of_succeeds {text : String} {scene : Scene} {strategy : Strategy}
    {loader : Loader} {recordRetention : Bool} {calls : List Call}
    (parsed : Program.parse? text = some scene.program)
    (succeeds : (Session.fresh scene strategy loader recordRetention).Succeeds calls) :
    ResolutionClosed scene.program
      ((Session.fresh scene strategy loader recordRetention).after calls).state := by
  have defines := Program.namesDefinitions_of_parse? parsed
  have heeds := succeeds.heeds (Session.heeds_fresh scene strategy loader recordRetention)
  have balanced := (Session.fresh scene strategy loader recordRetention).balanced_of_start
    (Session.balanced_fresh scene strategy loader recordRetention) calls
  constructor
  case type =>
    intro id target reached resolved
    have next := heeds.followsLeads.isReached_resolved reached resolved
    exact ⟨next, (balanced.mem_types_iff target).2 ⟨next, defines.isSome_typeDefinition? resolved⟩⟩
  case method => exact fun id target => heeds.isReached_resolvedMethod
  case field => exact fun id target => heeds.isReached_resolvedField
  case base =>
    intro id reached target member
    have next := heeds.isReached_of_mem_baseTypesFrom reached member
    exact (balanced.mem_types_iff target).2 ⟨next, defines.isSome_of_mem_baseTypesFrom member⟩

/-! ## A chain of each kind -/

/-- The base type of `Derived` is an instance of a reference to `Base`. The members of `Base` are
known by references as well, its method through an instance of one. -/
def chained : Program where
  types := #[
    .definition { namespaceName := "App", name := "Base", methods := [⟨0⟩], fields := [⟨0⟩] },
    .reference "App.Base",
    .specification (.genericInstance ⟨1⟩ [⟨3⟩]),
    .definition { name := "Derived", baseType := some ⟨2⟩ }]
  methods := #[
    .definition { declaringType := ⟨0⟩, name := "Run", returnType := ⟨1⟩ },
    .reference { declaringType := ⟨2⟩, name := "Run", returnType := ⟨1⟩ },
    .instance ⟨1⟩ []]
  fields := #[
    .definition { declaringType := ⟨0⟩, name := "next", fieldType := ⟨2⟩ },
    .reference { declaringType := ⟨1⟩, name := "next", fieldType := ⟨2⟩ }]

/-- The document of a program is read from its characters. -/
theorem Program.parse?_document (p : Program) :
    parse? p.document = ((Json.Token.scan? (Json.chars .pretty 0 p.form)).bind Json.ofTokens?).bind
      fun value => (ofForm? value).map rebuild := by
  simp only [parse?, document, Json.parse?, Json.pretty, String.toList_ofList, Option.bind_eq_bind,
    Option.pure_def, Option.map_eq_bind]
  rfl

set_option maxRecDepth 4000 in
/-- Marking `Derived`, the instance and the referring field. -/
theorem resolutionClosed_chained :
    let calls : List Call :=
      [.mark (some (.type ⟨3⟩)), .mark (some (.method ⟨2⟩)), .mark (some (.field ⟨1⟩))]
    ∃ p, Program.parse? chained.document = some p ∧
      let session :=
        Session.fresh { program := p, includes := fun _ => false } .worklist .empty true
      session.Succeeds calls ∧ ResolutionClosed p (session.after calls).state ∧
      p.baseTypes ⟨3⟩ = [⟨0⟩] ∧ (session.after calls).state.types.toList = [⟨3⟩, ⟨0⟩] ∧
      p.resolveMethod? ⟨2⟩ = some ⟨0⟩ ∧ (session.after calls).isReached (.method ⟨0⟩) ∧
      p.resolveField? ⟨1⟩ = some ⟨0⟩ ∧ (session.after calls).isReached (.field ⟨0⟩) := by
  intro calls
  have tested : (Program.parse? chained.document).any fun p =>
      let session :=
        Session.fresh { program := p, includes := fun _ => false } .worklist .empty true
      ((session.attempt 100 calls).any fun result => result.1.all (·.1.isOk) &&
        result.2.state.types.toList = [⟨3⟩, ⟨0⟩] && result.2.isReached (.method ⟨0⟩) &&
        result.2.isReached (.field ⟨0⟩)) && p.baseTypes ⟨3⟩ = [⟨0⟩] &&
      p.resolveMethod? ⟨2⟩ = some ⟨0⟩ && p.resolveField? ⟨1⟩ = some ⟨0⟩ := by
    rw [Program.parse?_document]
    decide +kernel
  obtain ⟨p, parsed, passed⟩ := (Option.any_eq_true _ _).1 tested
  simp only [Bool.and_eq_true, decide_eq_true_eq] at passed
  obtain ⟨⟨⟨attempted, base⟩, method⟩, field⟩ := passed
  have marked := Session.attempt_any _ calls 100 (fun entries final => entries.all (·.1.isOk) &&
    final.state.types.toList = [⟨3⟩, ⟨0⟩] && final.isReached (.method ⟨0⟩) &&
    final.isReached (.field ⟨0⟩)) attempted
  simp only [Bool.and_eq_true, decide_eq_true_eq] at marked
  obtain ⟨⟨⟨ok, types⟩, reachedMethod⟩, reachedField⟩ := marked
  have succeeds := Session.succeeds_of_isOk ok
  exact ⟨p, parsed, succeeds, resolutionClosed_of_succeeds parsed succeeds, base, types, method,
    reachedMethod, field, reachedField⟩

end Liveset
