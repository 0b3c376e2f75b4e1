import Liveset.Program.Description
import Liveset.Proofs.Program.Listing

/-!
# Who owns what

A program built from nothing lists on each definition exactly what names it as its owner, in the
order of handles, and carries no attribute twice (`Program.listsOwned_build`). The directions of
ownership were shown to stay in step for positions; here they are read off for the nodes and handles
of a program.
-/

set_option autoImplicit false

namespace Liveset

/-! ## Attributes -/

/-- The attributes that a type carries. -/
def TypeNode.attributes : TypeNode → List AttributeId
  | .definition d => d.attributes
  | _ => []

/-- The attributes that a method carries. -/
def MethodNode.attributes : MethodNode → List AttributeId
  | .definition d => d.attributes
  | _ => []

/-- The attributes that a field carries. -/
def FieldNode.attributes : FieldNode → List AttributeId
  | .definition d => d.attributes
  | _ => []

namespace Program

/-- The attributes of all nodes and of the program itself, one list after the other. -/
def carried (p : Program) : List AttributeId :=
  p.types.toList.flatMap TypeNode.attributes ++ p.methods.toList.flatMap MethodNode.attributes ++
    p.fields.toList.flatMap FieldNode.attributes ++
      p.properties.toList.flatMap Property.attributes ++
    p.events.toList.flatMap Event.attributes ++ p.parameters.toList.flatMap Parameter.attributes ++
    p.genericParameters.toList.flatMap GenericParameter.attributes ++ p.programAttributes

/-- An attribute that exists is carried at most once, any other not at all. -/
def Sparse (p : Program) : Prop :=
  ∀ id, p.carried.count id ≤ if id.index < p.attributes.size then 1 else 0

/-- How often the nodes of an arena carry an attribute. -/
def countIn {α : Type} (attributes : α → List AttributeId) (arena : Array α)
    (id : AttributeId) : Nat :=
  (arena.toList.flatMap attributes).count id

theorem count_carried (p : Program) (id : AttributeId) :
    p.carried.count id = countIn TypeNode.attributes p.types id +
      countIn MethodNode.attributes p.methods id + countIn FieldNode.attributes p.fields id +
      countIn Property.attributes p.properties id + countIn Event.attributes p.events id +
      countIn Parameter.attributes p.parameters id +
      countIn GenericParameter.attributes p.genericParameters id +
      p.programAttributes.count id := by
  simp only [carried, countIn, List.count_append]

/-- Putting something on the list of at most one node. -/
theorem countIn_modify {α : Type} {attributes : α → List AttributeId} {f : α → α}
    (new : AttributeId)
    (change : ∀ node, attributes (f node) = attributes node ∨
      attributes (f node) = attributes node ++ [new])
    (arena : Array α) (i : Nat) (id : AttributeId) :
    countIn attributes (arena.modify i f) id ≤ countIn attributes arena id + [new].count id := by
  rw [countIn, countIn, Array.toList_modify]
  generalize arena.toList = nodes
  induction nodes generalizing i with
  | nil => simp
  | cons node rest ih =>
    cases i with
    | zero =>
      simp only [List.modify_zero_cons, List.flatMap_cons, List.count_append]
      rcases change node with same | more
      · rw [same]
        omega
      · rw [more, List.count_append]
        omega
    | succ i =>
      simp only [List.modify_succ_cons, List.flatMap_cons, List.count_append]
      have later := ih i
      omega

theorem carried_modifyType (p : Program) (id : TypeId) {f : TypeDefinition → TypeDefinition}
    (same : ∀ d, (f d).attributes = d.attributes) : (p.modifyType id f).carried = p.carried := by
  simp only [carried, modifyType]
  rw [flatMap_modify fun node => by cases node <;> simp [TypeNode.attributes, same]]

theorem carried_modifyMethod (p : Program) (id : MethodId) {f : MethodDefinition → MethodDefinition}
    (same : ∀ d, (f d).attributes = d.attributes) : (p.modifyMethod id f).carried = p.carried := by
  simp only [carried, modifyMethod]
  rw [flatMap_modify fun node => by cases node <;> simp [MethodNode.attributes, same]]

theorem carried_tagAccessors (p : Program) (slots : List (Option MethodId × Semantics)) :
    (p.tagAccessors slots).carried = p.carried := by
  induction slots generalizing p with
  | nil => rfl
  | cons slot rest ih =>
    refine (ih (p.tagAccessor slot)).trans ?_
    unfold tagAccessor
    split
    · rfl
    · exact p.carried_modifyMethod _ fun _ => rfl

theorem carried_listGenericParameter (p : Program) (owner : GenericOwner)
    (id : GenericParameterId) :
    (p.listGenericParameter owner id).carried = p.carried := by
  cases owner with
  | type t => exact p.carried_modifyType t fun _ => rfl
  | method m => exact p.carried_modifyMethod m fun _ => rfl

/-- Of the arenas only that of the owner changes, and there at most one node. -/
theorem count_carried_listAttribute (p : Program) (owner : Entity) (new id : AttributeId) :
    (p.listAttribute owner new).carried.count id ≤ p.carried.count id + [new].count id := by
  rw [count_carried, count_carried]
  cases owner with
  | type t =>
    have more : countIn TypeNode.attributes (p.listAttribute (.type t) new).types id ≤ _ :=
      countIn_modify new
        (fun node => by cases node <;> simp [TypeNode.attributes]) p.types t.index id
    simp only [listAttribute, modifyType] at more ⊢
    omega
  | method m =>
    have more : countIn MethodNode.attributes (p.listAttribute (.method m) new).methods id ≤ _ :=
      countIn_modify new
        (fun node => by cases node <;> simp [MethodNode.attributes]) p.methods m.index id
    simp only [listAttribute, modifyMethod] at more ⊢
    omega
  | field f =>
    have more : countIn FieldNode.attributes (p.listAttribute (.field f) new).fields id ≤ _ :=
      countIn_modify new
        (fun node => by cases node <;> simp [FieldNode.attributes]) p.fields f.index id
    simp only [listAttribute, modifyField] at more ⊢
    omega
  | property d =>
    have more : countIn Property.attributes (p.listAttribute (.property d) new).properties id ≤ _ :=
      countIn_modify new (fun _ => .inr rfl) p.properties d.index id
    simp only [listAttribute] at more ⊢
    omega
  | event d =>
    have more : countIn Event.attributes (p.listAttribute (.event d) new).events id ≤ _ :=
      countIn_modify new (fun _ => .inr rfl) p.events d.index id
    simp only [listAttribute] at more ⊢
    omega
  | parameter d =>
    have more : countIn Parameter.attributes
        (p.listAttribute (.parameter d) new).parameters id ≤ _ :=
      countIn_modify new (fun _ => .inr rfl) p.parameters d.index id
    simp only [listAttribute] at more ⊢
    omega
  | genericParameter d =>
    have more : countIn GenericParameter.attributes
        (p.listAttribute (.genericParameter d) new).genericParameters id ≤ _ :=
      countIn_modify new (fun _ => .inr rfl) p.genericParameters d.index id
    simp only [listAttribute] at more ⊢
    omega
  | «attribute» | foreignClass | foreignField | foreignMethod => exact Nat.le_add_right _ _

end Program

/-- Does the operation add an attribute? -/
def Operation.addsAttribute : Operation → Bool
  | .attribute _ _ | .programAttribute _ => true
  | _ => false

namespace Program

theorem attributes_listGenericParameter (p : Program) (owner : GenericOwner)
    (id : GenericParameterId) : (p.listGenericParameter owner id).attributes = p.attributes := by
  cases owner <;> rfl

theorem attributes_tagAccessors (p : Program) (slots : List (Option MethodId × Semantics)) :
    (p.tagAccessors slots).attributes = p.attributes := by
  rw [tagAccessors_eq]

/-- An operation that adds no attribute lists none. -/
theorem carried_perform (p : Program) {operation : Operation} (bare : operation.Bare)
    (other : operation.addsAttribute = false) :
    (p.perform operation).carried = p.carried ∧
      (p.perform operation).attributes = p.attributes := by
  cases operation with
  | type d =>
    refine ⟨?_, rfl⟩
    simp [perform, addType, pushType, carried, TypeNode.attributes, bare.2.2.2.2.2]
  | specification s =>
    refine ⟨?_, rfl⟩
    simp [perform, addSpecification, pushType, carried, TypeNode.attributes]
  | typeReference fullName =>
    refine ⟨?_, rfl⟩
    simp [perform, addTypeReference, pushType, carried, TypeNode.attributes]
  | genericParameter owner name =>
    have pushed (q : Program) (g : GenericParameterId) :
        (q.pushType (.genericParameter g)).2.carried = q.carried := by
      simp [pushType, carried, TypeNode.attributes]
    rw [perform, addGenericParameter, pushed, carried_listGenericParameter]
    refine ⟨by simp [carried], ?_⟩
    exact attributes_listGenericParameter _ _ _
  | method d =>
    refine ⟨((p.pushMethod (.definition d)).2.carried_modifyType d.declaringType
      fun _ => by rfl).trans
      ?_, rfl⟩
    simp [pushMethod, carried, MethodNode.attributes, bare.2.2]
  | methodReference r =>
    refine ⟨?_, rfl⟩
    simp [perform, addMethodReference, pushMethod, carried, MethodNode.attributes]
  | methodInstance element arguments =>
    refine ⟨?_, rfl⟩
    simp [perform, addMethodInstance, pushMethod, carried, MethodNode.attributes]
  | parameter m name type =>
    let added : Parameter := { owner := .method m, name, parameterType := type }
    refine ⟨(carried_modifyMethod { p with parameters := p.parameters.push added } m
      fun _ => by rfl).trans ?_, rfl⟩
    simp [carried, added]
  | field d =>
    refine ⟨((p.pushField (.definition d)).2.carried_modifyType d.declaringType
      fun _ => by rfl).trans
      ?_, rfl⟩
    simp [pushField, carried, FieldNode.attributes, show d.attributes = [] from bare]
  | fieldReference r =>
    refine ⟨?_, rfl⟩
    simp [perform, addFieldReference, pushField, carried, FieldNode.attributes]
  | property d =>
    rw [perform, addProperty, carried_tagAccessors, attributes_tagAccessors]
    refine ⟨(carried_modifyType { p with properties := p.properties.push d } d.declaringType
      fun _ => by rfl).trans ?_, rfl⟩
    simp [carried, show d.attributes = [] from bare]
  | event d =>
    rw [perform, addEvent, carried_tagAccessors, attributes_tagAccessors]
    refine ⟨(carried_modifyType { p with events := p.events.push d } d.declaringType
      fun _ => by rfl).trans ?_, rfl⟩
    simp [carried, show d.attributes = [] from bare]
  | «attribute» | programAttribute => cases other
  | entryPoint e =>
    rw [perform, addEntryPoint]
    split <;> exact ⟨rfl, rfl⟩

/-- An attribute that is added is listed at most once. -/
theorem count_carried_perform (p : Program) {operation : Operation}
    (adds : operation.addsAttribute = true) (id : AttributeId) :
    (p.perform operation).carried.count id ≤
        p.carried.count id + [(⟨p.attributes.size⟩ : AttributeId)].count id ∧
      (p.perform operation).attributes.size = p.attributes.size + 1 := by
  cases operation with
  | «attribute» owner a =>
    refine ⟨(p.pushAttribute a).2.count_carried_listAttribute owner ⟨p.attributes.size⟩ id, ?_⟩
    cases owner <;>
      simp [perform, addAttribute, pushAttribute, listAttribute, modifyType, modifyMethod,
        modifyField]
  | programAttribute a =>
    constructor
    · simp [perform, addProgramAttribute, pushAttribute, carried, List.count_append]
      omega
    · simp [perform, addProgramAttribute, pushAttribute]
  | _ => cases adds

theorem Sparse.perform {p : Program} (h : p.Sparse) {operation : Operation}
    (bare : operation.Bare) :
    (p.perform operation).Sparse := by
  intro id
  have before := h id
  cases adds : operation.addsAttribute with
  | false =>
    obtain ⟨carried, attributes⟩ := p.carried_perform bare adds
    rw [carried, attributes]
    exact before
  | true =>
    obtain ⟨counted, size⟩ := p.count_carried_perform adds id
    rw [size]
    by_cases new : id.index = p.attributes.size
    · rw [if_neg (by omega)] at before
      rw [if_pos (by omega)]
      have once := List.count_le_length (a := id) (l := [(⟨p.attributes.size⟩ : AttributeId)])
      simp only [List.length_singleton] at once
      omega
    · have absent : [(⟨p.attributes.size⟩ : AttributeId)].count id = 0 := by
        refine List.count_eq_zero.2 fun member => new ?_
        rw [List.mem_singleton.1 member]
      split at before
      · rw [if_pos (by omega)]
        omega
      · omega

end Program

/-! ## What the lists enumerate -/

theorem TypeId.index_injective : Function.Injective TypeId.index := fun ⟨_⟩ ⟨_⟩ => congrArg mk

theorem MethodId.index_injective : Function.Injective MethodId.index := fun ⟨_⟩ ⟨_⟩ => congrArg mk

theorem FieldId.index_injective : Function.Injective FieldId.index := fun ⟨_⟩ ⟨_⟩ => congrArg mk

theorem PropertyId.index_injective : Function.Injective PropertyId.index :=
  fun ⟨_⟩ ⟨_⟩ => congrArg mk

theorem EventId.index_injective : Function.Injective EventId.index := fun ⟨_⟩ ⟨_⟩ => congrArg mk

theorem ParameterId.index_injective : Function.Injective ParameterId.index :=
  fun ⟨_⟩ ⟨_⟩ => congrArg mk

theorem GenericParameterId.index_injective : Function.Injective GenericParameterId.index :=
  fun ⟨_⟩ ⟨_⟩ => congrArg mk

/-- The list holds the handles for which something holds, each once and in increasing order. -/
structure Enumerates {α : Type} (index : α → Nat) (ids : List α) (belongs : α → Prop) : Prop where
  increasing : ids.Pairwise fun a b => index a < index b
  mem_iff : ∀ id, id ∈ ids ↔ belongs id

theorem Listing.InStep.enumerates {l : Listing} (h : l.InStep) {α : Type} {index : α → Nat}
    (injective : Function.Injective index) (owner : Nat) {ids : List α}
    (listed : l.lists[owner]? = some (some (ids.map index))) {belongs : α → Prop}
    (named : ∀ id, l.owners[index id]? = some (some owner) ↔ belongs id) :
    Enumerates index ids belongs := by
  have exact := h.lists owner _ listed
  constructor
  · rw [← List.pairwise_map, exact]
    exact List.pairwise_findIdxs
  · intro id
    rw [← named id, ← List.mem_map_of_injective injective, exact, Listing.ownedBy,
      List.mem_findIdxs_iff_exists_getElem_pos]
    simp [List.getElem?_eq_some_iff]

namespace Program

/-- The lists of a program say what the nodes say that name an owner. -/
structure ListsOwned (p : Program) : Prop where
  methods : ∀ t d, p.typeDefinition? t = some d → Enumerates MethodId.index d.methods
    fun id => ∃ m, p.methodDefinition? id = some m ∧ m.declaringType = t
  fields : ∀ t d, p.typeDefinition? t = some d → Enumerates FieldId.index d.fields
    fun id => ∃ f, p.fieldDefinition? id = some f ∧ f.declaringType = t
  properties : ∀ t d, p.typeDefinition? t = some d → Enumerates PropertyId.index d.properties
    fun id => ∃ q, p.property? id = some q ∧ q.declaringType = t
  events : ∀ t d, p.typeDefinition? t = some d → Enumerates EventId.index d.events
    fun id => ∃ e, p.event? id = some e ∧ e.declaringType = t
  typeParameters : ∀ t d, p.typeDefinition? t = some d →
    Enumerates GenericParameterId.index d.genericParameters
      fun id => ∃ g, p.genericParameter? id = some g ∧ g.owner = .type t
  parameters : ∀ m d, p.methodDefinition? m = some d → Enumerates ParameterId.index d.parameters
    fun id => ∃ a, p.parameter? id = some a ∧ a.owner = .method m
  methodParameters : ∀ m d, p.methodDefinition? m = some d →
    Enumerates GenericParameterId.index d.genericParameters
      fun id => ∃ g, p.genericParameter? id = some g ∧ g.owner = .method m

variable {p : Program}

theorem getElem?_lists_of_type {k : Ownership} (ofTypes : k.ofTypes) {t : TypeId}
    {d : TypeDefinition} (found : p.typeDefinition? t = some d) :
    (p.lists k)[t.index]? = some (some (k.typeItems d)) := by
  obtain ⟨node, there, defined⟩ := Option.bind_eq_some_iff.1 found
  have there : p.types[t.index]? = some node := there
  simp [lists, ofTypes, nodeLists, there, defined]

theorem getElem?_lists_of_method {k : Ownership} (ofMethods : k.ofTypes = false) {m : MethodId}
    {d : MethodDefinition} (found : p.methodDefinition? m = some d) :
    (p.lists k)[m.index]? = some (some (k.methodItems d)) := by
  obtain ⟨node, there, defined⟩ := Option.bind_eq_some_iff.1 found
  have there : p.methods[m.index]? = some node := there
  simp [lists, ofMethods, nodeLists, there, defined]

theorem InStep.enumerates_of_type (h : p.InStep) (k : Ownership) (ofTypes : k.ofTypes) {t : TypeId}
    {d : TypeDefinition} (found : p.typeDefinition? t = some d) {α : Type} {index : α → Nat}
    (injective : Function.Injective index) {ids : List α} (items : k.typeItems d = ids.map index)
    {belongs : α → Prop}
    (named : ∀ id, (p.owners k)[index id]? = some (some t.index) ↔ belongs id) :
    Enumerates index ids belongs := by
  refine (h k).enumerates injective t.index ?_ named
  rw [← items]
  exact getElem?_lists_of_type ofTypes found

theorem InStep.enumerates_of_method (h : p.InStep) (k : Ownership) (ofMethods : k.ofTypes = false)
    {m : MethodId} {d : MethodDefinition} (found : p.methodDefinition? m = some d) {α : Type}
    {index : α → Nat} (injective : Function.Injective index) {ids : List α}
    (items : k.methodItems d = ids.map index) {belongs : α → Prop}
    (named : ∀ id, (p.owners k)[index id]? = some (some m.index) ↔ belongs id) :
    Enumerates index ids belongs := by
  refine (h k).enumerates injective m.index ?_ named
  rw [← items]
  exact getElem?_lists_of_method ofMethods found

theorem InStep.listsOwned (h : p.InStep) : p.ListsOwned where
  methods t d found := by
    refine h.enumerates_of_type .methods rfl found MethodId.index_injective rfl fun id => ?_
    simp only [owners, List.getElem?_map, Array.getElem?_toList, Option.map_eq_some_iff,
      TypeId.index_injective.eq_iff, methodDefinition?, method?, Option.bind_eq_some_iff]
    grind
  fields t d found := by
    refine h.enumerates_of_type .fields rfl found FieldId.index_injective rfl fun id => ?_
    simp only [owners, List.getElem?_map, Array.getElem?_toList, Option.map_eq_some_iff,
      TypeId.index_injective.eq_iff, fieldDefinition?, field?, Option.bind_eq_some_iff]
    grind
  properties t d found := by
    refine h.enumerates_of_type .properties rfl found PropertyId.index_injective rfl fun id => ?_
    simp [owners, property?, TypeId.index_injective.eq_iff]
  events t d found := by
    refine h.enumerates_of_type .events rfl found EventId.index_injective rfl fun id => ?_
    simp [owners, event?, TypeId.index_injective.eq_iff]
  typeParameters t d found := by
    refine h.enumerates_of_type .typeParameters rfl found GenericParameterId.index_injective rfl
      fun id => ?_
    simp [owners, genericParameter?, GenericOwner.type?_eq_some_iff, TypeId.index_injective.eq_iff]
  parameters m d found := by
    refine h.enumerates_of_method .parameters rfl found ParameterId.index_injective rfl fun id => ?_
    simp [owners, parameter?, ParameterOwner.method?_eq_some_iff, MethodId.index_injective.eq_iff]
  methodParameters m d found := by
    refine h.enumerates_of_method .methodParameters rfl found GenericParameterId.index_injective rfl
      fun id => ?_
    simp [owners, genericParameter?, GenericOwner.method?_eq_some_iff,
      MethodId.index_injective.eq_iff]

/-! ## From the lister to the listed and back -/

/-- The entities that an entity lists as its own. -/
def listed (p : Program) : Entity → List Entity
  | .type t => ((p.typeDefinition? t).map fun d =>
      d.methods.map .method ++ d.fields.map .field ++ d.properties.map .property ++
        d.events.map .event ++ d.genericParameters.map .genericParameter).getD []
  | .method m => ((p.methodDefinition? m).map fun d =>
      d.parameters.map .parameter ++ d.genericParameters.map .genericParameter).getD []
  | _ => []

/-- What an entity lists names it as its owner. -/
theorem ListsOwned.owner?_of_mem_listed (h : p.ListsOwned) {e member : Entity}
    (listed : member ∈ p.listed e) : p.owner? member = some e := by
  cases e with
  | type t =>
    cases found : p.typeDefinition? t with
    | none => simp [Program.listed, found] at listed
    | some d =>
      simp only [Program.listed, found, Option.map_some, Option.getD_some, List.mem_append,
        List.mem_map] at listed
      obtain (((⟨id, member, rfl⟩ | ⟨id, member, rfl⟩) | ⟨id, member, rfl⟩) | ⟨id, member, rfl⟩) |
        ⟨id, member, rfl⟩ := listed
      · obtain ⟨m, defined, rfl⟩ := ((h.methods t d found).mem_iff id).1 member
        simp [owner?, method?_of_methodDefinition? defined]
      · obtain ⟨f, defined, rfl⟩ := ((h.fields t d found).mem_iff id).1 member
        simp [owner?, field?_of_fieldDefinition? defined]
      · obtain ⟨q, there, rfl⟩ := ((h.properties t d found).mem_iff id).1 member
        simp [owner?, there]
      · obtain ⟨v, there, rfl⟩ := ((h.events t d found).mem_iff id).1 member
        simp [owner?, there]
      · obtain ⟨g, there, owner⟩ := ((h.typeParameters t d found).mem_iff id).1 member
        simp [owner?, there, owner]
  | method m =>
    cases found : p.methodDefinition? m with
    | none => simp [Program.listed, found] at listed
    | some d =>
      simp only [Program.listed, found, Option.map_some, Option.getD_some, List.mem_append,
        List.mem_map] at listed
      obtain ⟨id, member, rfl⟩ | ⟨id, member, rfl⟩ := listed
      · obtain ⟨a, there, owner⟩ := ((h.parameters m d found).mem_iff id).1 member
        simp [owner?, there, owner]
      · obtain ⟨g, there, owner⟩ := ((h.methodParameters m d found).mem_iff id).1 member
        simp [owner?, there, owner]
  | _ => cases listed

end Program

/-! ## Programs built from nothing -/

/-- The operation adds nothing that lists something already, and its owner is there. -/
def Operation.Plain (p : Program) (operation : Operation) : Prop :=
  operation.Bare ∧ operation.OwnerExists p

namespace Program

/-- Ownership in a program built from nothing by operations that add bare definitions under owners
that exist. Definitions list exactly what names them, in increasing order and each once; no
attribute is carried twice; what is listed has its lister as owner. And no operation, on any
program, moves a node that exists or changes it, the lists of what it owns and carries and the part
it plays aside. -/
theorem listsOwned_build {operations : List Operation}
    (admitted : Admits Operation.Plain {} operations) :
    (build {} operations).ListsOwned ∧ (build {} operations).carried.Nodup ∧
      (∀ e, ∀ member ∈ (build {} operations).listed e,
        (build {} operations).owner? member = some e) ∧
      ∀ (q : Program) (operation : Operation), q.Extends (q.perform operation) := by
  have kept : (build {} operations).InStep ∧ (build {} operations).Sparse := by
    refine admitted.preserves (fun p => p.InStep ∧ p.Sparse) (fun p operation holds plain => ?_)
      ⟨inStep_empty, fun _ => Nat.zero_le _⟩
    exact ⟨holds.1.perform plain.1 plain.2, holds.2.perform plain.1⟩
  have owned := kept.1.listsOwned
  refine ⟨owned, ?_, fun e member listed => owned.owner?_of_mem_listed listed, extends_perform⟩
  refine List.nodup_iff_count.2 fun id => ?_
  have counted := kept.2 id
  split at counted <;> omega

/-- A generic type with a member of each kind, a generic method and attributes in three places. -/
def gadget : List Operation := [
  .type { namespaceName := "System", name := "Void" },
  .type { namespaceName := "App", name := "Gadget" },
  .genericParameter (.type ⟨1⟩) "T",
  .method { declaringType := ⟨1⟩, name := "Turn", returnType := ⟨0⟩ },
  .genericParameter (.method ⟨0⟩) "U",
  .parameter ⟨0⟩ "by" ⟨3⟩,
  .field { declaringType := ⟨1⟩, name := "angle", fieldType := ⟨2⟩ },
  .method { declaringType := ⟨1⟩, name := "get_Angle", returnType := ⟨2⟩ },
  .property { declaringType := ⟨1⟩, name := "Angle", propertyType := ⟨2⟩, getter := some ⟨1⟩ },
  .event { declaringType := ⟨1⟩, name := "Turned", eventType := ⟨0⟩ },
  .attribute (.type ⟨1⟩) { constructor := ⟨0⟩ },
  .attribute (.parameter ⟨0⟩) { constructor := ⟨0⟩ },
  .programAttribute { constructor := ⟨0⟩ }]

theorem listsOwned_gadget :
    Admits Operation.Plain {} gadget ∧ (build {} gadget).ListsOwned ∧
      (build {} gadget).carried = [⟨0⟩, ⟨1⟩, ⟨2⟩] ∧ (build {} gadget).carried.Nodup ∧
      (build {} gadget).listed (.type ⟨1⟩) = [.method ⟨0⟩, .method ⟨1⟩, .field ⟨0⟩, .property ⟨0⟩,
        .event ⟨0⟩, .genericParameter ⟨0⟩] ∧
      (build {} gadget).listed (.method ⟨0⟩) = [.parameter ⟨0⟩, .genericParameter ⟨1⟩] ∧
      (build {} gadget).owner? (.genericParameter ⟨1⟩) = some (.method ⟨0⟩) := by
  have admitted : Admits Operation.Plain {} gadget := by
    simp only [gadget, Admits, Operation.Plain, Operation.Bare, Operation.OwnerExists]
    decide
  obtain ⟨owned, nodup, owner, -⟩ := listsOwned_build admitted
  refine ⟨admitted, owned, by decide, nodup, by decide, by decide, owner _ _ ?_⟩
  decide

end Program

end Liveset
