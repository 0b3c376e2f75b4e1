import Liveset.Proofs.Reach.Heeding
import Liveset.Proofs.Reach.Provenance

/-!
# Attributes that only inform the compiler

Attributes are attached to seven kinds of entities and to the program as a whole. The rules of all
seven name the attributes attached, except for those that only inform the compiler, and no other
part of a rule names an attribute (`Scene.attribute_mem_needs_iff`). Nor is an attribute reached on
the way to something else, since it owns nothing.

Main statement: after whatever calls, failed ones included, no attribute is reached that only
informs the compiler, unless it is given directly; and calls that succeed reach all others that are
attached to something reached (`filtersAttributes_after`).
-/

set_option autoImplicit false

namespace Liveset

/-! ## Attached attributes -/

namespace Program

variable {p : Program} {id : AttributeId}

/-- The attribute only informs the compiler: the type that declares its constructor denotes a type
definition with that flag. -/
def CompilerOnly (p : Program) (id : AttributeId) : Prop :=
  ∃ a declaring type d, p.attribute? id = some a ∧
    p.methodDeclaringType? a.constructor = some declaring ∧
    p.resolveType? declaring = some type ∧ p.typeDefinition? type = some d ∧ d.flags.compilerOnly

theorem isCompilerOnly_iff : p.isCompilerOnly id ↔ p.CompilerOnly id := by
  simp only [isCompilerOnly, Option.any_eq_true, Option.bind_eq_some_iff, CompilerOnly]
  grind

theorem isCompilerOnly_eq_false_iff : p.isCompilerOnly id = false ↔ ¬ p.CompilerOnly id := by
  rw [← isCompilerOnly_iff, Bool.not_eq_true]

theorem mem_attributeNeeds_iff {attached : List AttributeId} :
    .entity (.attribute id) ∈ p.attributeNeeds attached ↔ id ∈ attached ∧ ¬ p.CompilerOnly id := by
  simp [attributeNeeds, isCompilerOnly_eq_false_iff]

/-- No attribute is on the way to another entity. -/
theorem OnTheWay.eq_attribute {target : Entity} (h : p.OnTheWay target (.attribute id)) :
    target = .attribute id := by
  rcases h with same | owned | ⟨owner, -, owned⟩
  · exact same.symm
  · exact absurd owned (p.owner?_ne_attribute target id)
  · exact absurd owned (p.owner?_ne_attribute owner id)

end Program

namespace Scene

variable {scene : Scene} {r : Repository} {e : Entity} {id : AttributeId}

theorem entity_notMem_crossings {target : Entity} : .entity target ∉ scene.crossings r e := by
  cases e with
  | type id | method id | field id => simp [crossings]
  | foreignClass id => cases found : r.class? id <;> simp [crossings, found]
  | _ => exact List.not_mem_nil

/-- The attributes that a rule names are those attached to the entity, except for those that only
inform the compiler. -/
theorem attribute_mem_needs_iff {needs : List Need} (h : scene.needs r e = .ok needs) :
    .entity (.attribute id) ∈ needs ↔
      id ∈ scene.program.attached e ∧ ¬ scene.program.CompilerOnly id := by
  obtain ⟨before, after, rfl, first, last⟩ := arranged_of_needs h
  have own {part : List Need} (inherent : ∀ need ∈ part, need.Inherent e) :
      .entity (.attribute id) ∉ part := fun listed => Bool.false_ne_true (inherent _ listed)
  simp only [List.mem_append, own first, own last, entity_notMem_crossings, or_false, false_or,
    Program.mem_attributeNeeds_iff]

theorem AsksFor.attached (h : scene.AsksFor r e (.attribute id)) :
    id ∈ scene.program.attached e ∧ ¬ scene.program.CompilerOnly id := by
  rcases h with ⟨x, applied, -, listed⟩ | ⟨method, base, -, -, -, same⟩
  · obtain ⟨needs, asked, rfl⟩ := expand_eq_ok applied
    apply (attribute_mem_needs_iff asked).1
    exact (Need.mark_mem_supply_iff rfl).1 listed
  · -- What is overridden is a method.
    cases same

end Scene

/-! ## Passes -/

/-- An attribute comes up in a pass: it is attached to an entity that is reached, or to the program,
and the attributes of that are walked. -/
inductive State.Offers (p : Program) (calls : List Call) (s : State) (id : AttributeId) : Prop where
  | entity {e : Entity} (reached : s.isReached e) (attached : id ∈ p.attached e)
  | program (walked : .walkProgramAttributes ∈ calls) (attached : id ∈ p.programAttributes)

variable {scene : Scene} {s : State} {calls : List Call} {id : AttributeId}

/-- A reached attribute was given, or it comes up and does not only inform the compiler. -/
theorem State.Caused.offers (h : s.Caused scene (Given scene calls)) (ordered : s.Ordered)
    (reached : s.isReached (.attribute id)) :
    (∃ call ∈ calls, .attribute id ∈ call.entities) ∨
      (s.Offers scene.program calls id ∧ ¬ scene.program.CompilerOnly id) := by
  obtain ⟨source, cause, precedes⟩ := h _ reached
  cases source with
  | none =>
    obtain ⟨root, given, way⟩ := cause
    cases way.eq_attribute
    rcases given with direct | ⟨walked, id', attached, kept, same⟩
    · exact .inl direct
    · cases same
      exact .inr ⟨.program walked attached, Program.isCompilerOnly_eq_false_iff.1 kept⟩
  | some origin =>
    obtain ⟨target, asks, way⟩ := cause
    cases way.eq_attribute
    obtain ⟨attached, kept⟩ := asks.attached
    exact .inr ⟨.entity (ordered.isReached_of_precedes (precedes origin rfl)) attached, kept⟩

/-- Calls that succeed reach every attribute that comes up and does not only inform the compiler. -/
theorem Session.Succeeds.isReached_attribute {strategy : Strategy} {loader : Loader}
    {recordRetention : Bool} (h : (fresh scene strategy loader recordRetention).Succeeds calls)
    (offers : ((fresh scene strategy loader recordRetention).after calls).state.Offers
      scene.program calls id)
    (kept : ¬ scene.program.CompilerOnly id) :
    ((fresh scene strategy loader recordRetention).after calls).isReached (.attribute id) := by
  cases offers with
  | @entity e reached attached =>
    have native : e.isForeign = false := by
      cases e with
      | foreignClass _ | foreignField _ _ | foreignMethod _ _ => cases attached
      | _ => rfl
    obtain ⟨needs, asked, heeded⟩ :=
      h.heeds (heeds_fresh scene strategy loader recordRetention) e native reached
    exact heeded _ ((Scene.attribute_mem_needs_iff asked).2 ⟨attached, kept⟩)
  | program walked attached =>
    have given : Given scene calls (.attribute id) :=
      .inr ⟨walked, id, attached, Program.isCompilerOnly_eq_false_iff.2 kept, rfl⟩
    obtain ⟨call, listed, target⟩ :=
      exists_target_of_given (fresh scene strategy loader recordRetention) given
    exact h.isReached_target listed target

/-- Attributes that only inform the compiler never come out of a pass. After whatever calls of a
fresh session, failed ones included, that are given none of them directly, no such attribute is
reached; a reached attribute was given or is attached to something reached, or to the program.
Nothing else is left out: if the calls succeed, all other attributes that come up are reached. -/
theorem filtersAttributes_after (scene : Scene) (strategy : Strategy) (loader : Loader)
    (recordRetention : Bool) (calls : List Call)
    (direct : ∀ call ∈ calls, ∀ id, .attribute id ∈ call.entities →
      ¬ scene.program.CompilerOnly id) :
    let session := Session.fresh scene strategy loader recordRetention
    let s := (session.after calls).state
    (∀ id, s.isReached (.attribute id) → ¬ scene.program.CompilerOnly id ∧
      ((∃ call ∈ calls, .attribute id ∈ call.entities) ∨ s.Offers scene.program calls id)) ∧
    (session.Succeeds calls → ∀ id, s.Offers scene.program calls id →
      ¬ scene.program.CompilerOnly id →
      s.isReached (.attribute id)) := by
  intro session s
  refine ⟨fun id reached => ?_,
    fun succeeds id offers kept => succeeds.isReached_attribute offers kept⟩
  obtain ⟨ordered, caused⟩ := Session.caused_after scene strategy loader recordRetention calls
  rcases caused.offers ordered reached with ⟨call, listed, given⟩ | ⟨offers, kept⟩
  · exact ⟨direct call listed id given, .inl ⟨call, listed, given⟩⟩
  · exact ⟨kept, .inr offers⟩

/-- Every entity that can carry attributes carries two, and so does the program. Of the attributes
those with an odd number only inform the compiler; the constructors of all are named by references.
The rule of `Box` fails, as there is no support for its generic parameter. -/
def board : Program :=
  Program.rebuild {
    types := #[
      .definition { namespaceName := "App", name := "Note" },
      .definition { namespaceName := "App", name := "Hint", flags := { compilerOnly := true } },
      .reference "App.Note",
      .reference "App.Hint",
      .definition
        { namespaceName := "App", name := "Board", attributes := [⟨0⟩, ⟨1⟩], methods := [⟨2⟩],
          fields := [⟨0⟩], properties := [⟨0⟩], events := [⟨0⟩] },
      .definition { namespaceName := "App", name := "Box`1", genericParameters := [⟨1⟩] },
      .reference "System.Void"]
    methods := #[
      .reference { declaringType := ⟨2⟩, name := ".ctor", returnType := ⟨6⟩ },
      .reference { declaringType := ⟨3⟩, name := ".ctor", returnType := ⟨6⟩ },
      .definition
        { declaringType := ⟨4⟩, name := "Draw", returnType := ⟨6⟩, parameters := [⟨0⟩],
          attributes := [⟨2⟩, ⟨3⟩] }]
    fields := #[.definition {
      declaringType := ⟨4⟩, name := "size", fieldType := ⟨6⟩, attributes := [⟨4⟩, ⟨5⟩] }]
    properties := #[{
      declaringType := ⟨4⟩, name := "Title", propertyType := ⟨6⟩, attributes := [⟨6⟩, ⟨7⟩] }]
    events := #[{
      declaringType := ⟨4⟩, name := "Drawn", eventType := ⟨6⟩, attributes := [⟨8⟩, ⟨9⟩] }]
    parameters := #[{
      owner := .method ⟨2⟩, name := "pen", parameterType := ⟨6⟩, attributes := [⟨10⟩, ⟨11⟩] }]
    genericParameters := #[
      { owner := .type ⟨4⟩, name := "T", attributes := [⟨12⟩, ⟨13⟩] },
      { owner := .type ⟨5⟩, name := "T" }]
    attributes := (Array.range 17).map fun i => { constructor := ⟨i % 2⟩ }
    programAttributes := [⟨14⟩, ⟨15⟩] }

set_option maxRecDepth 4000 in
/-- The calls reach the attributes of `board` with an even number and no others, whether or not a
call that fails goes ahead of them. -/
theorem filtersAttributes_board :
    let session :=
      Session.fresh { program := board, includes := fun _ => true } .worklist .empty false
    let calls : List Call :=
      [.walkProgramAttributes, .markRoots [.genericParameter ⟨0⟩, .attribute ⟨16⟩]]
    let failing := .mark (some (.type ⟨5⟩)) :: calls
    (∀ call ∈ failing, ∀ id, .attribute id ∈ call.entities → ¬ board.CompilerOnly id) ∧
      (session.history failing).map (·.1.isOk) = [false, true, true] ∧ session.Succeeds calls ∧
      (∀ i < 17, board.CompilerOnly ⟨i⟩ ↔ i % 2 = 1) ∧
      ((List.range 17).filter fun i => (session.after failing).isReached (.attribute ⟨i⟩)) =
        [0, 2, 4, 6, 8, 10, 12, 14, 16] ∧
      (∀ id, (session.after failing).isReached (.attribute id) → ¬ board.CompilerOnly id) ∧
      (session.after calls).isReached (.attribute ⟨14⟩) := by
  intro session calls failing
  have flagged : ∀ i < 17, board.CompilerOnly ⟨i⟩ ↔ i % 2 = 1 := by
    simp only [← Program.isCompilerOnly_iff]
    decide +kernel
  have direct : ∀ call ∈ failing, ∀ id, .attribute id ∈ call.entities →
      ¬ board.CompilerOnly id := by
    simp [failing, calls, Call.entities, flagged]
  have tested := session.attempt_any failing 300
    (fun entries final => entries.map (·.1.isOk) = [false, true, true] &&
      ((List.range 17).filter fun i => final.isReached (.attribute ⟨i⟩)) =
        [0, 2, 4, 6, 8, 10, 12, 14, 16])
    (by decide +kernel)
  have ok := session.attempt_any calls 300 (fun entries _ => entries.all (·.1.isOk))
    (by decide +kernel)
  simp only [Bool.and_eq_true, decide_eq_true_eq] at tested
  obtain ⟨verdicts, reached⟩ := tested
  have succeeds := Session.succeeds_of_isOk ok
  refine ⟨direct, verdicts, succeeds, flagged, reached, fun id known => ?_, ?_⟩
  · have filters := filtersAttributes_after session.scene .worklist .empty false failing direct
    exact (filters.1 id known).1
  · apply (filtersAttributes_after session.scene .worklist .empty false calls
      fun call listed => direct call (List.mem_cons_of_mem _ listed)).2 succeeds
    · exact .program List.mem_cons_self List.mem_cons_self
    · exact fun informs => absurd ((flagged 14 (by decide)).1 informs) (by decide)

end Liveset
