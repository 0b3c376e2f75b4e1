import Liveset.Proofs.Program.Denotation
import Liveset.Proofs.Reach.Supply
import Liveset.Reach.Rule

/-!
# Expansion rules taken apart

The rules of type and method definitions are built from parts that can fail. When such a rule gives
needs, so did each of its parts, and the needs are theirs in order: the `_eq_ok` lemmas say so, one
for each rule. From them follows how the needs of an entity are arranged
(`Scene.arranged_of_needs`): the attributes attached to it stand together, and so do the needs that
cross the border of the program; the rest of a rule stays inside and names no attribute. So it is
known what the rules can ask for at all (`Scene.allowed_of_needs`).

The needs of an entity do not depend on the moment, unless the entity is a foreign class that is not
loaded yet. With the laws of meeting needs this makes an expansion repeatable: evaluated again at
any later time it gives the same steps and loads nothing (`Scene.expand_of_extends`).
-/

set_option autoImplicit false

namespace Liveset

/-! ## Computations that can fail -/

section Failure

variable {ε α β : Type}

theorem exists_of_bind_eq_ok {x : Except ε α} {f : α → Except ε β} {b : β}
    (h : (x >>= f) = .ok b) : ∃ a, x = .ok a ∧ f a = .ok b := by
  cases x with
  | error error => cases h
  | ok a => exact ⟨a, rfl, h⟩

theorem exists_of_map_eq_ok {x : Except ε α} {f : α → β} {b : β} (h : x.map f = .ok b) :
    ∃ a, x = .ok a ∧ f a = b := by
  cases x with
  | error error => cases h
  | ok a => exact ⟨a, rfl, by simpa [Except.map] using h⟩

end Failure

/-! ## Parts of the rules -/

section Parts

variable {support : Support} {p : Program} {needs : List Need}

theorem instructionNeeds_eq_ok {locals : List TypeId} {instruction : Instruction}
    {next? : Option Instruction}
    (h : instructionNeeds support p locals instruction next? = .ok needs) :
    ∃ reference operation, referenceNeeds support p locals instruction next? = .ok reference ∧
      support.opcodeNeeds p instruction.opcode = .ok operation ∧
      needs = reference ++ operation := by
  obtain ⟨reference, first, h⟩ := exists_of_bind_eq_ok h
  obtain ⟨operation, second, h⟩ := exists_of_bind_eq_ok h
  cases h
  exact ⟨reference, operation, first, second, rfl⟩

theorem instructionsNeeds_cons_eq_ok {locals : List TypeId} {instruction : Instruction}
    {rest : List Instruction}
    (h : instructionsNeeds support p locals (instruction :: rest) = .ok needs) :
    ∃ first others, instructionNeeds support p locals instruction rest.head? = .ok first ∧
      instructionsNeeds support p locals rest = .ok others ∧ needs = first ++ others := by
  obtain ⟨first, head, h⟩ := exists_of_bind_eq_ok h
  obtain ⟨others, tail, h⟩ := exists_of_bind_eq_ok h
  cases h
  exact ⟨first, others, head, tail, rfl⟩

theorem bodyNeeds_eq_ok {body : MethodBody} (h : bodyNeeds support p body = .ok needs) :
    ∃ code, instructionsNeeds support p body.locals body.instructions = .ok code ∧
      needs = (body.handlers.filterMap (·.catchType) ++ body.locals).map
        (fun id => .entity (.type id)) ++ code := by
  obtain ⟨code, run, h⟩ := exists_of_bind_eq_ok h
  cases h
  exact ⟨code, run, rfl⟩

end Parts

/-! ## Definitions -/

namespace Scene

variable {scene : Scene} {needs : List Need}

/-- The rule of a type definition. -/
theorem needs_typeDefinition {r : Repository} {id : TypeId} {d : TypeDefinition}
    (defined : scene.program.typeDefinition? id = some d) :
    scene.needs r (.type id) = scene.typeDefinitionRule id d := by
  simp only [Scene.needs, typeRule, Program.type?_of_typeDefinition? defined]

/-- The rule of a method definition. -/
theorem needs_methodDefinition {r : Repository} {id : MethodId} {d : MethodDefinition}
    (defined : scene.program.methodDefinition? id = some d) :
    scene.needs r (.method id) = scene.methodDefinitionRule id d := by
  simp only [Scene.needs, methodRule, Program.method?_of_methodDefinition? defined]

theorem supportNeeds_eq_ok {names : List String} (h : scene.supportNeeds names = .ok needs) :
    ∃ types, names.mapM (scene.support.type scene.program) = .ok types ∧
      needs = Program.typeNeeds types := by
  obtain ⟨types, found, h⟩ := exists_of_bind_eq_ok h
  cases h
  exact ⟨types, found, rfl⟩

theorem genericNeeds_eq_ok {owner : GenericOwner} {parameters : List GenericParameterId}
    (h : scene.genericNeeds owner parameters = .ok needs) :
    (parameters = [] ∧ needs = []) ∨
      ∃ support, scene.supportNeeds (scene.genericSupport owner) = .ok support ∧
        needs = support ++ parameters.map fun id => .entity (.genericParameter id) := by
  cases parameters with
  | nil =>
    cases h
    exact .inl ⟨rfl, rfl⟩
  | cons parameter rest =>
    obtain ⟨support, found, h⟩ := exists_of_bind_eq_ok h
    cases h
    exact .inr ⟨support, found, rfl⟩

theorem typeDefinitionRule_eq_ok {id : TypeId} {d : TypeDefinition}
    (h : scene.typeDefinitionRule id d = .ok needs) :
    ∃ generic special, scene.genericNeeds (.type id) d.genericParameters = .ok generic ∧
      scene.specialNeeds id = .ok special ∧
      needs = generic ++
        Program.typeNeeds (d.baseType.toList ++ d.declaringType.toList ++ d.interfaces) ++
        special ++ Support.needs ((scene.program.defaultConstructor? id).toList ++
          (scene.program.classConstructor? id).toList) ++
        (scene.includedMembers d).map (fun m => .entity m.entity) ++
        scene.program.attributeNeeds d.attributes ++ d.foreignImport.toList.map .foreignClass ++
        Support.needs
          (if d.flags.interface && d.flags.importedInterface then d.methods else []) := by
  obtain ⟨generic, first, h⟩ := exists_of_bind_eq_ok h
  obtain ⟨special, second, h⟩ := exists_of_bind_eq_ok h
  cases h
  exact ⟨generic, special, first, second, rfl⟩

theorem methodDefinitionRule_eq_ok {id : MethodId} {d : MethodDefinition}
    (h : scene.methodDefinitionRule id d = .ok needs) :
    ∃ generic code, scene.genericNeeds (.method id) d.genericParameters = .ok generic ∧
      codeNeeds scene.support scene.program d.body = .ok code ∧
      needs = [.entity (.type d.returnType)] ++
        d.parameters.map (fun a => .entity (.parameter a)) ++ generic ++ code ++
        Support.needs d.overrides ++ (if d.flags.virtual then [.overridden id] else []) ++
        scene.program.attributeNeeds d.attributes ++
        d.imported.toList.map (fun i => .foreignMember .method i (.method id)) ++
        scene.program.accessorNeeds id d := by
  obtain ⟨generic, first, h⟩ := exists_of_bind_eq_ok h
  obtain ⟨code, second, h⟩ := exists_of_bind_eq_ok h
  cases h
  exact ⟨generic, code, first, second, rfl⟩

end Scene

/-! ## What the rules can ask for -/

section Inherent

variable {e : Entity} {p : Program} {needs : List Need}

theorem inherent_typeNeeds (types : List TypeId) :
    ∀ need ∈ Program.typeNeeds types, need.Inherent e := by
  simp [Program.typeNeeds, Need.Inherent, Entity.isInherent]

theorem inherent_methodNeeds (methods : List MethodId) :
    ∀ need ∈ Support.needs methods, need.Inherent e := by
  simp [Support.needs, Need.Inherent, Entity.isInherent]

theorem inherent_typeValueNeeds (declared : TypeId) (value : Constant) :
    ∀ need ∈ p.typeValueNeeds declared value, need.Inherent e := by
  unfold Program.typeValueNeeds
  split
  · exact inherent_typeNeeds value.types
  · simp

theorem inherent_namedNeeds {members : List Entity}
    (native : ∀ m ∈ members, (Need.entity m).Inherent e) (named : NamedArgument) :
    ∀ need ∈ p.namedNeeds members named, need.Inherent e := by
  intro need wanted
  rcases List.mem_cons.1 wanted with rfl | wanted
  · exact rfl
  · rcases List.mem_append.1 wanted with wanted | wanted
    · obtain ⟨m, listed, rfl⟩ := List.mem_map.1 wanted
      exact native m listed
    · exact inherent_typeValueNeeds _ _ need wanted

theorem inherent_attributeRule (a : Attribute) : ∀ need ∈ p.attributeRule a, need.Inherent e := by
  have fields (name : String) :
      ∀ m ∈ p.fieldsCalled (p.attributeHierarchy a.constructor) name,
          (Need.entity m).Inherent e := by
    intro m called
    obtain ⟨d, -, called⟩ := List.mem_flatMap.1 called
    obtain ⟨id, -, rfl⟩ := List.mem_map.1 called
    exact rfl
  have properties (name : String) :
      ∀ m ∈ p.propertiesCalled (p.attributeHierarchy a.constructor) name,
        (Need.entity m).Inherent e := by
    intro m called
    obtain ⟨d, -, called⟩ := List.mem_flatMap.1 called
    obtain ⟨id, -, rfl⟩ := List.mem_map.1 called
    exact rfl
  -- The constructor, then the positional arguments, then the named fields and properties.
  intro need wanted
  rcases List.mem_cons.1 wanted with rfl | wanted
  · exact rfl
  · rcases List.mem_append.1 wanted with wanted | wanted
    · rcases List.mem_append.1 wanted with wanted | wanted
      · unfold Program.positionalNeeds at wanted
        split at wanted
        · cases wanted
        · obtain ⟨⟨declared, argument⟩, -, wanted⟩ := List.mem_flatMap.1 wanted
          exact inherent_typeValueNeeds _ _ need wanted
      · obtain ⟨named, -, wanted⟩ := List.mem_flatMap.1 wanted
        exact inherent_namedNeeds (fields named.name) named need wanted
    · obtain ⟨named, -, wanted⟩ := List.mem_flatMap.1 wanted
      exact inherent_namedNeeds (properties named.name) named need wanted

theorem inherent_accessorNeeds (id : MethodId) (d : MethodDefinition) :
    ∀ need ∈ p.accessorNeeds id d, need.Inherent e := by
  unfold Program.accessorNeeds
  split
  · simp
  · split <;> simp [Need.Inherent, Entity.isInherent]

theorem inherent_specificationRule (s : TypeSpecification) :
    ∀ need ∈ Program.specificationRule s, need.Inherent e := by
  cases s <;> exact inherent_typeNeeds _

theorem inherent_operandNeeds {target : Entity} (native : (Need.entity target).Inherent e)
    (instruction : Instruction) (next? : Option Instruction) :
    ∀ need ∈ operandNeeds p instruction next? target, need.Inherent e := by
  unfold operandNeeds
  split
  · simp
  · exact List.forall_mem_singleton.2 native

theorem inherent_of_map_methodNeeds {x : Except SupportError (List MethodId)}
    (h : x.map Support.needs = .ok needs) : ∀ need ∈ needs, need.Inherent e := by
  obtain ⟨found, -, rfl⟩ := exists_of_map_eq_ok h
  exact inherent_methodNeeds found

theorem inherent_arrayArgumentNeeds {support : Support} {signature : Program.Signature}
    (h : support.arrayArgumentNeeds p signature = .ok needs) : ∀ need ∈ needs, need.Inherent e := by
  unfold Support.arrayArgumentNeeds at h
  split at h
  · obtain ⟨boxing, -, h⟩ := exists_of_bind_eq_ok h
    obtain ⟨unboxing, -, h⟩ := exists_of_bind_eq_ok h
    cases h
    exact List.forall_mem_append.2 ⟨inherent_methodNeeds boxing, inherent_methodNeeds unboxing⟩
  · cases h
    simp

theorem inherent_arrayResultNeeds {support : Support} {signature : Program.Signature}
    (h : support.arrayResultNeeds p signature = .ok needs) : ∀ need ∈ needs, need.Inherent e := by
  unfold Support.arrayResultNeeds at h
  split at h
  · exact inherent_of_map_methodNeeds h
  · cases h
    simp

theorem inherent_genericArrayNeeds {support : Support} {method : MethodId}
    (h : support.genericArrayNeeds p method = .ok needs) : ∀ need ∈ needs, need.Inherent e := by
  unfold Support.genericArrayNeeds at h
  split at h
  · cases h
    simp
  · obtain ⟨arguments, first, h⟩ := exists_of_bind_eq_ok h
    obtain ⟨result, second, h⟩ := exists_of_bind_eq_ok h
    cases h
    exact List.forall_mem_append.2
      ⟨inherent_arrayArgumentNeeds first, inherent_arrayResultNeeds second⟩

theorem inherent_opcodeNeeds {support : Support} {opcode : OpCode}
    (h : support.opcodeNeeds p opcode = .ok needs) : ∀ need ∈ needs, need.Inherent e := by
  unfold Support.opcodeNeeds at h
  split at h
  · exact inherent_of_map_methodNeeds h
  · split at h
    · exact inherent_of_map_methodNeeds h
    · split at h
      · exact inherent_of_map_methodNeeds h
      · cases h
        simp

theorem inherent_referenceNeeds {support : Support} {locals : List TypeId}
    {instruction : Instruction} {next? : Option Instruction}
    (h : referenceNeeds support p locals instruction next? = .ok needs) :
    ∀ need ∈ needs, need.Inherent e := by
  unfold referenceNeeds at h
  split at h
  · cases h
    apply inherent_operandNeeds
    exact rfl
  · obtain ⟨arrays, called, rfl⟩ := exists_of_map_eq_ok h
    refine List.forall_mem_append.2 ⟨?_, inherent_genericArrayNeeds called⟩
    apply inherent_operandNeeds
    exact rfl
  · cases h
    apply inherent_operandNeeds
    exact rfl
  · cases h
    exact List.forall_mem_singleton.2 rfl
  · cases h
    exact inherent_typeNeeds _
  · cases h
    simp

theorem inherent_instructionsNeeds {support : Support} {locals : List TypeId} :
    ∀ {instructions : List Instruction} {needs : List Need},
      instructionsNeeds support p locals instructions = .ok needs →
      ∀ need ∈ needs, need.Inherent e
  | [], _, h => by
    cases h
    simp
  | instruction :: rest, _, h => by
    obtain ⟨first, others, head, tail, rfl⟩ := instructionsNeeds_cons_eq_ok h
    obtain ⟨reference, operation, named, done, rfl⟩ := instructionNeeds_eq_ok head
    rw [List.forall_mem_append, List.forall_mem_append]
    exact ⟨⟨inherent_referenceNeeds named, inherent_opcodeNeeds done⟩,
      inherent_instructionsNeeds tail⟩

theorem inherent_codeNeeds {support : Support} {body : Option MethodBody}
    (h : codeNeeds support p body = .ok needs) : ∀ need ∈ needs, need.Inherent e := by
  cases body with
  | none =>
    cases h
    simp
  | some body =>
    obtain ⟨code, run, rfl⟩ := bodyNeeds_eq_ok h
    exact List.forall_mem_append.2 ⟨inherent_typeNeeds _, inherent_instructionsNeeds run⟩

end Inherent

/-- The attributes attached to an entity. Attributes have none, and neither has what is not a
definition. -/
def Program.attached (p : Program) : Entity → List AttributeId
  | .type id => ((p.typeDefinition? id).map (·.attributes)).getD []
  | .method id => ((p.methodDefinition? id).map (·.attributes)).getD []
  | .field id => ((p.fieldDefinition? id).map (·.attributes)).getD []
  | .property id => ((p.property? id).map (·.attributes)).getD []
  | .event id => ((p.event? id).map (·.attributes)).getD []
  | .parameter id => ((p.parameter? id).map (·.attributes)).getD []
  | .genericParameter id => ((p.genericParameter? id).map (·.attributes)).getD []
  | _ => []

namespace Scene

variable {scene : Scene} {e : Entity} {needs : List Need} {r r' : Repository}

theorem inherent_supportNeeds {names : List String} (h : scene.supportNeeds names = .ok needs) :
    ∀ need ∈ needs, need.Inherent e := by
  obtain ⟨types, -, rfl⟩ := supportNeeds_eq_ok h
  exact inherent_typeNeeds types

theorem inherent_genericNeeds {owner : GenericOwner} {parameters : List GenericParameterId}
    (h : scene.genericNeeds owner parameters = .ok needs) : ∀ need ∈ needs, need.Inherent e := by
  rcases genericNeeds_eq_ok h with ⟨-, rfl⟩ | ⟨support, found, rfl⟩
  · simp
  · refine List.forall_mem_append.2 ⟨inherent_supportNeeds found, ?_⟩
    simp [Need.Inherent, Entity.isInherent]

theorem inherent_specialNeeds {id : TypeId} (h : scene.specialNeeds id = .ok needs) :
    ∀ need ∈ needs, need.Inherent e := by
  simp only [specialNeeds] at h
  split at h
  · exact inherent_supportNeeds h
  · split at h
    · obtain ⟨integers, -, h⟩ := exists_of_bind_eq_ok h
      obtain ⟨longs, -, h⟩ := exists_of_bind_eq_ok h
      cases h
      exact List.forall_mem_append.2 ⟨inherent_methodNeeds integers, inherent_methodNeeds longs⟩
    · cases h
      simp

/-- The needs of an entity that cross the border of the program: the foreign class or member that it
stands for, and the parents of a foreign class. -/
def crossings (scene : Scene) (r : Repository) : Entity → List Need
  | .type id =>
    ((scene.program.typeDefinition? id).bind (·.foreignImport)).toList.map .foreignClass
  | .method id =>
    ((scene.program.methodDefinition? id).bind (·.imported)).toList.map
      fun i => .foreignMember .method i (.method id)
  | .field id =>
    ((scene.program.fieldDefinition? id).bind (·.imported)).toList.map
      fun i => .foreignMember .field i (.field id)
  | .foreignClass id => ((r.class? id).map (·.parents.map .foreignClass)).getD []
  | _ => []

/-- The needs are arranged in order: some of the entity's own, the attributes that are attached to
it and reach the output, those that cross the border of the program, and again some of its own. -/
def Arranged (scene : Scene) (e : Entity) (attached : List AttributeId)
    (crossings needs : List Need) : Prop :=
  ∃ before after, needs = before ++ scene.program.attributeNeeds attached ++ crossings ++ after ∧
    (∀ need ∈ before, need.Inherent e) ∧ ∀ need ∈ after, need.Inherent e

theorem arranged_typeDefinitionRule {id : TypeId} {d : TypeDefinition}
    (h : scene.typeDefinitionRule id d = .ok needs) :
    scene.Arranged e d.attributes (d.foreignImport.toList.map .foreignClass) needs := by
  obtain ⟨generic, special, first, second, rfl⟩ := typeDefinitionRule_eq_ok h
  have members : ∀ need ∈ (scene.includedMembers d).map (fun m => Need.entity m.entity),
      need.Inherent e := by
    intro need wanted
    obtain ⟨m, -, rfl⟩ := List.mem_map.1 wanted
    cases m <;> exact rfl
  refine ⟨_, _, rfl, ?_, inherent_methodNeeds _⟩
  simp only [List.forall_mem_append]
  exact ⟨⟨⟨⟨inherent_genericNeeds first, inherent_typeNeeds _⟩, inherent_specialNeeds second⟩,
    inherent_methodNeeds _⟩, members⟩

/-- Of all rules only that of a virtual method asks for an overridden method, and for its own. -/
theorem arranged_methodDefinitionRule {id : MethodId} {d : MethodDefinition}
    (h : scene.methodDefinitionRule id d = .ok needs) :
    scene.Arranged (.method id) d.attributes
      (d.imported.toList.map fun i => .foreignMember .method i (.method id)) needs := by
  obtain ⟨generic, code, first, second, rfl⟩ := methodDefinitionRule_eq_ok h
  have declared : ∀ need ∈ [Need.entity (.type d.returnType)] ++
      d.parameters.map (fun a => Need.entity (.parameter a)), need.Inherent (.method id) := by
    simp [Need.Inherent, Entity.isInherent]
  have virtual : ∀ need ∈ (if d.flags.virtual then [Need.overridden id] else []),
      need.Inherent (.method id) := by
    split <;> simp [Need.Inherent]
  refine ⟨_, _, rfl, ?_, inherent_accessorNeeds _ _⟩
  simp only [List.forall_mem_append] at declared ⊢
  exact ⟨⟨⟨⟨declared, inherent_genericNeeds first⟩, inherent_codeNeeds second⟩,
    inherent_methodNeeds _⟩, virtual⟩

/-- A rule with needs of its own only. -/
theorem arranged_of_inherent {attached : List AttributeId} {crossings : List Need}
    (bare : attached = []) (none : crossings = []) (inherent : ∀ need ∈ needs, need.Inherent e) :
    scene.Arranged e attached crossings needs :=
  ⟨needs, [], by simp [bare, none, Program.attributeNeeds], inherent, by simp⟩

/-- A rule that ends with the attributes. -/
theorem arranged_append {attached : List AttributeId} (before : List Need)
    (inherent : ∀ need ∈ before, need.Inherent e) :
    scene.Arranged e attached [] (before ++ scene.program.attributeNeeds attached) :=
  ⟨before, [], by simp, inherent, by simp⟩

theorem arranged_typeRule {id : TypeId} (h : scene.typeRule id = .ok needs) :
    scene.Arranged e (scene.program.attached (.type id)) (scene.crossings r (.type id)) needs := by
  simp only [Program.attached, crossings, Program.typeDefinition?]
  unfold typeRule at h
  split at h
  · rename_i d found
    rw [found]
    exact arranged_typeDefinitionRule h
  · rename_i s found
    cases h
    exact arranged_of_inherent (by rw [found]; rfl) (by rw [found]; rfl)
      (inherent_specificationRule s)
  · rename_i g found
    cases h
    exact arranged_of_inherent (by rw [found]; rfl) (by rw [found]; rfl)
      (List.forall_mem_singleton.2 rfl)
  · rename_i name found
    cases h
    exact arranged_of_inherent (by rw [found]; rfl) (by rw [found]; rfl) (inherent_typeNeeds _)
  · rename_i found
    cases h
    exact arranged_of_inherent (by rw [found]; rfl) (by rw [found]; rfl) (by simp)

theorem arranged_methodRule {id : MethodId} (h : scene.methodRule id = .ok needs) :
    scene.Arranged (.method id) (scene.program.attached (.method id))
      (scene.crossings r (.method id)) needs := by
  simp only [Program.attached, crossings, Program.methodDefinition?]
  unfold methodRule at h
  split at h
  · rename_i d found
    rw [found]
    exact arranged_methodDefinitionRule h
  · rename_i element arguments found
    cases h
    exact arranged_of_inherent (by rw [found]; rfl) (by rw [found]; rfl)
      (List.forall_mem_cons.2 ⟨rfl, inherent_typeNeeds _⟩)
  · rename_i reference found
    cases h
    exact arranged_of_inherent (by rw [found]; rfl) (by rw [found]; rfl)
      (List.forall_mem_append.2 ⟨inherent_typeNeeds _, inherent_methodNeeds _⟩)
  · rename_i found
    cases h
    exact arranged_of_inherent (by rw [found]; rfl) (by rw [found]; rfl) (by simp)

theorem arranged_fieldRule (scene : Scene) (r : Repository) (id : FieldId) :
    scene.Arranged e (scene.program.attached (.field id)) (scene.crossings r (.field id))
      (fieldRule scene.program id) := by
  simp only [Program.attached, crossings, Program.fieldDefinition?]
  unfold fieldRule
  split
  · rename_i d found
    rw [found]
    refine ⟨[.entity (.type d.fieldType)], [], ?_, List.forall_mem_singleton.2 rfl, ?_⟩
    · simp [FieldNode.definition?]
    · simp
  · rename_i reference found
    refine arranged_of_inherent (by rw [found]; rfl) (by rw [found]; rfl)
      (List.forall_mem_cons.2 ⟨rfl, ?_⟩)
    simp [Need.Inherent, Entity.isInherent]
  · rename_i found
    exact arranged_of_inherent (by rw [found]; rfl) (by rw [found]; rfl) (by simp)

/-- How the needs of an entity are arranged. -/
theorem arranged_of_needs (h : scene.needs r e = .ok needs) :
    scene.Arranged e (scene.program.attached e) (scene.crossings r e) needs := by
  cases e with
  | type id => exact arranged_typeRule h
  | method id => exact arranged_methodRule h
  | field id =>
    cases h
    exact arranged_fieldRule scene r id
  | property id =>
    cases h
    simp only [propertyRule, Program.attached]
    cases scene.program.property? id with
    | none => exact arranged_of_inherent rfl rfl (by simp)
    | some d =>
      apply arranged_append
        (.entity (.type d.propertyType) :: d.parameters.map fun a => .entity (.parameter a))
      simp [Need.Inherent, Entity.isInherent]
  | event id =>
    cases h
    simp only [eventRule, Program.attached]
    cases scene.program.event? id with
    | none => exact arranged_of_inherent rfl rfl (by simp)
    | some d => exact arranged_append [_] (List.forall_mem_singleton.2 rfl)
  | parameter id =>
    cases h
    simp only [parameterRule, Program.attached]
    cases scene.program.parameter? id with
    | none => exact arranged_of_inherent rfl rfl (by simp)
    | some d => exact arranged_append [_] (List.forall_mem_singleton.2 rfl)
  | genericParameter id =>
    cases h
    simp only [genericParameterRule, Program.attached]
    cases scene.program.genericParameter? id with
    | none => exact arranged_of_inherent rfl rfl (by simp)
    | some d => exact arranged_append _ (inherent_typeNeeds d.constraints)
  | «attribute» id =>
    cases h
    apply arranged_of_inherent rfl rfl
    cases scene.program.attribute? id with
    | none => simp
    | some a => exact inherent_attributeRule a
  | foreignClass id =>
    cases h
    exact ⟨[], [], by simp [crossings, Program.attached, Program.attributeNeeds], by simp, by simp⟩
  | foreignField owner position | foreignMethod owner position =>
    cases h
    exact arranged_of_inherent rfl rfl (by simp)

/-- The crossings of an entity stand together in its rule, and all its other needs are domestic. -/
theorem encloses_of_needs (h : scene.needs r e = .ok needs) :
    Need.Encloses e needs (scene.crossings r e) := by
  obtain ⟨before, after, rfl, first, last⟩ := arranged_of_needs h
  refine ⟨_, after, rfl, List.forall_mem_append.2 ⟨?_, ?_⟩,
    fun need wanted => (last need wanted).domestic⟩
  · exact fun need wanted => (first need wanted).domestic
  · intro need wanted
    obtain ⟨id, -, rfl⟩ := List.mem_map.1 wanted
    rfl

theorem allowed_crossings {need : Need} (crossing : need ∈ scene.crossings r e) :
    need.Allowed e := by
  cases e with
  | type id | method id | field id =>
    obtain ⟨i, -, rfl⟩ := List.mem_map.1 crossing
    trivial
  | foreignClass id =>
    cases found : r.class? id with
    | none => simp [crossings, found] at crossing
    | some c =>
      obtain ⟨name, -, rfl⟩ : ∃ name ∈ c.parents, Need.foreignClass name = need := by
        simpa [crossings, found] using crossing
      trivial
  | _ => cases crossing

/-- What the rule of an entity can ask for. -/
theorem allowed_of_needs (h : scene.needs r e = .ok needs) : ∀ need ∈ needs, need.Allowed e := by
  obtain ⟨before, after, rfl, first, last⟩ := encloses_of_needs h
  simp only [List.forall_mem_append]
  refine ⟨⟨fun need wanted => ?_, fun need => allowed_crossings⟩, fun need wanted => ?_⟩
  · exact (first need wanted).allowed
  · exact (last need wanted).allowed

/-! ## Expansions -/

/-- The needs of an entity stay what they are, once its class is loaded. -/
theorem needs_of_extends (h : r.Extends r') (loaded : e.Loaded r) :
    scene.needs r' e = scene.needs r e := by
  cases e with
  | foreignClass id =>
    obtain ⟨c, found⟩ := Option.isSome_iff_exists.1 loaded
    simp only [needs, found, h.class?_eq found]
  | _ => rfl

theorem expand_eq_ok {x : Expansion} (h : scene.expand r e = .ok x) :
    ∃ needs, scene.needs r e = .ok needs ∧ Need.supply r needs = x :=
  exists_of_map_eq_ok h

theorem expand_eq_error {error : SupportError} (h : scene.expand r e = .error error) :
    scene.needs r e = .error error := by
  rw [expand] at h
  cases asked : scene.needs r e with
  | error other =>
    rw [asked] at h
    cases h
    rfl
  | ok needs =>
    rw [asked] at h
    cases h

theorem extends_expand {x : Expansion} (h : scene.expand r e = .ok x) : r.Extends x.repository := by
  obtain ⟨needs, -, rfl⟩ := expand_eq_ok h
  exact Need.extends_supply r needs

/-- What a request keeps, applying a rule keeps. -/
theorem keeps_expand {P : Repository → Prop} (request : ∀ r name, P r → P (r.tryLoad name).2)
    {x : Expansion} (start : P r) (h : scene.expand r e = .ok x) : P x.repository := by
  obtain ⟨needs, -, rfl⟩ := expand_eq_ok h
  exact Need.keeps_supply request needs start

theorem consistent_expand {x : Expansion} (consistent : r.Consistent)
    (h : scene.expand r e = .ok x) : x.repository.Consistent :=
  keeps_expand (fun _ name consistent => consistent.tryLoad name) consistent h

/-- An expansion evaluated again later gives the same steps and loads nothing. -/
theorem expand_of_extends {x : Expansion} (consistent : r.Consistent) (loaded : e.Loaded r)
    (h : scene.expand r e = .ok x) (grown : x.repository.Extends r') :
    scene.expand r' e = .ok { x with repository := r' } := by
  have later : r.Extends r' := (extends_expand h).trans grown
  obtain ⟨needs, asked, rfl⟩ := expand_eq_ok h
  rw [expand, needs_of_extends later loaded, asked]
  exact congrArg Except.ok (Need.supply_of_extends needs consistent grown)

/-- When applying a rule loads nothing, it meets the needs one by one. -/
theorem expand_of_settled {x : Expansion} (h : scene.expand r e = .ok x) (same : x.repository = r) :
    ∃ needs, scene.needs r e = .ok needs ∧ (∀ need ∈ needs, need.Settled r) ∧
      x.steps = needs.flatMap (fun need => (need.meet r).steps) ∧
      x.diagnostics = needs.flatMap fun need => (need.meet r).diagnostics := by
  obtain ⟨needs, asked, rfl⟩ := expand_eq_ok h
  have settled : ∀ need ∈ needs, need.Settled r := by
    apply Need.settled_of_supply (r := r)
    rw [same]
    exact .refl r
  refine ⟨needs, asked, settled, ?_⟩
  rw [Need.supply_of_settled settled]
  exact ⟨rfl, rfl⟩

/-- The steps of an expansion name entities of loaded classes or of the program. -/
theorem loaded_of_expand {x : Expansion} (consistent : r.Consistent)
    (h : scene.expand r e = .ok x) {target : Entity} (wanted : .mark target ∈ x.steps) :
    target.Loaded x.repository := by
  obtain ⟨needs, asked, rfl⟩ := expand_eq_ok h
  exact Need.loaded_of_supply (allowed_of_needs asked) consistent wanted

/-- Only an entity of the program or of a loaded class has steps. -/
theorem loaded_of_steps {x : Expansion} (h : scene.expand r e = .ok x) (busy : x.steps ≠ []) :
    e.Loaded r := by
  obtain ⟨needs, asked, rfl⟩ := expand_eq_ok h
  cases e with
  | foreignClass id =>
    cases found : r.class? id with
    | some c => simp [Entity.Loaded, found]
    | none =>
      simp only [Scene.needs, found] at asked
      cases asked
      exact absurd rfl busy
  | foreignField owner position | foreignMethod owner position =>
    cases asked
    exact absurd rfl busy
  | _ => trivial

/-- A step towards an overridden method stands in the expansion of the overriding one. -/
theorem eq_method_of_markOverridden {x : Expansion} (h : scene.expand r e = .ok x)
    {method : MethodId} (wanted : .markOverridden method ∈ x.steps) : e = .method method := by
  obtain ⟨needs, asked, rfl⟩ := expand_eq_ok h
  exact allowed_of_needs asked _ (Need.markOverridden_mem_supply.1 wanted)

/-- The expansion of a method that overrides another one has a step towards it. -/
theorem markOverridden_mem_of_overridden? {x : Expansion} {method base : MethodId}
    (overrides : scene.program.overridden? method = some base)
    (h : scene.expand r (.method method) = .ok x) : .markOverridden method ∈ x.steps := by
  obtain ⟨needs, asked, rfl⟩ := expand_eq_ok h
  rw [Need.markOverridden_mem_supply]
  simp only [Program.overridden?, Option.bind_eq_bind, Option.bind_eq_some_iff] at overrides
  -- Only definitions override, and those that are virtual have the need in their rule.
  obtain ⟨d, defined, overrides⟩ := overrides
  split at overrides
  · rename_i virtual
    rw [needs_methodDefinition defined] at asked
    obtain ⟨generic, code, -, -, rfl⟩ := methodDefinitionRule_eq_ok asked
    simp [virtual]
  · cases overrides

end Scene

end Liveset
