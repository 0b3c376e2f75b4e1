import Liveset.Proofs.Program.Construction
import Mathlib.Data.List.Basic

/-!
# Derived data kept up step by step

The builder registers the name of a type when the type is added, and tags accessors when their
property or event is added; loading computes both from the finished arenas. The two agree
(`Program.rebuild_build`), because an operation never changes the name of a type that exists, and
because the slots of an operation come after all earlier ones that name the same method.
-/

set_option autoImplicit false

namespace Liveset

/-! ## The types of a program -/

namespace Operation

/-- The type node that an operation adds. -/
def typeNode? (p : Program) : Operation → Option TypeNode
  | .type d => some (.definition d)
  | .specification s => some (.specification s)
  | .typeReference fullName => some (.reference fullName)
  | .genericParameter _ _ => some (.genericParameter ⟨p.genericParameters.size⟩)
  | _ => none

end Operation

namespace Program

/-- The outlines of the type nodes. -/
def typeOutlines (p : Program) : List TypeNode := p.types.toList.map TypeNode.outline

theorem typeOutlines_modifyType (p : Program) (id : TypeId) {f : TypeDefinition → TypeDefinition}
    (same : ∀ d, (TypeNode.definition (f d)).outline = (TypeNode.definition d).outline) :
    (p.modifyType id f).typeOutlines = p.typeOutlines :=
  map_toList_modify (fun node => by cases node <;> simp [same]) p.types id.index

theorem typeOutlines_tagAccessors (p : Program) (slots : List (Option MethodId × Semantics)) :
    (p.tagAccessors slots).typeOutlines = p.typeOutlines := by
  rw [tagAccessors_eq]
  rfl

/-- An operation adds the outline of at most one type at the end. -/
theorem typeOutlines_perform (p : Program) (operation : Operation) :
    (p.perform operation).typeOutlines =
      p.typeOutlines ++ ((operation.typeNode? p).map TypeNode.outline).toList := by
  cases operation with
  | type d => simp [perform, addType, pushType, typeOutlines, Operation.typeNode?]
  | specification s => simp [perform, addSpecification, pushType, typeOutlines, Operation.typeNode?]
  | typeReference fullName =>
    simp [perform, addTypeReference, pushType, typeOutlines, Operation.typeNode?]
  | genericParameter owner name =>
    have listed (q : Program) (id : GenericParameterId) :
        (q.listGenericParameter owner id).typeOutlines = q.typeOutlines := by
      cases owner with
      | type t => exact q.typeOutlines_modifyType t fun _ => rfl
      | method m => rfl
    have pushed (q : Program) (node : TypeNode) :
        (q.pushType node).2.typeOutlines = q.typeOutlines ++ [node.outline] := by
      simp [pushType, typeOutlines]
    rw [perform, addGenericParameter, pushed, listed]
    rfl
  | method d =>
    rw [perform, addMethod]
    exact (typeOutlines_modifyType _ _ fun _ => by rfl).trans (List.append_nil _).symm
  | field d =>
    rw [perform, addField]
    exact (typeOutlines_modifyType _ _ fun _ => by rfl).trans (List.append_nil _).symm
  | property d =>
    rw [perform, addProperty, typeOutlines_tagAccessors]
    exact (typeOutlines_modifyType _ _ fun _ => by rfl).trans (List.append_nil _).symm
  | event d =>
    rw [perform, addEvent, typeOutlines_tagAccessors]
    exact (typeOutlines_modifyType _ _ fun _ => by rfl).trans (List.append_nil _).symm
  | «attribute» owner a =>
    refine Eq.trans ?_ (List.append_nil _).symm
    cases owner with
    | type t => exact (typeOutlines_modifyType _ t fun _ => by rfl)
    | _ => rfl
  | entryPoint e =>
    refine Eq.trans ?_ (List.append_nil _).symm
    rw [perform, addEntryPoint]
    split <;> rfl
  | methodReference | methodInstance | fieldReference | parameter | programAttribute =>
    exact (List.append_nil _).symm

theorem length_typeOutlines (p : Program) : p.typeOutlines.length = p.types.size := by
  simp [typeOutlines]

theorem getElem?_typeOutlines (p : Program) (t : TypeId) :
    p.typeOutlines[t.index]? = (p.type? t).map TypeNode.outline := by
  simp [typeOutlines, type?]

theorem isSome_typeDefinition? (p : Program) (t : TypeId) :
    (p.typeDefinition? t).isSome = (p.typeOutlines[t.index]?.bind TypeNode.definition?).isSome := by
  rw [getElem?_typeOutlines, typeDefinition?]
  cases p.type? t with
  | none => rfl
  | some node => cases node <;> rfl

/-- A type that exists keeps its outline. -/
theorem getElem?_typeOutlines_perform (p : Program) (operation : Operation) {i : Nat}
    (known : i < p.types.size) : (p.perform operation).typeOutlines[i]? = p.typeOutlines[i]? := by
  rw [typeOutlines_perform, List.getElem?_append_left (by rwa [length_typeOutlines])]

/-! ## Names -/

/-- The parts that the name of a type is put together from stand before it, and the generic
parameter that it stands for exists. -/
structure Grounded (p : Program) : Prop where
  parts : ∀ (i : Nat) (node : TypeNode), p.typeOutlines[i]? = some node →
    ∀ t ∈ node.parts, t.index < i
  generic : ∀ g, .genericParameter g ∈ p.typeOutlines → g.index < p.genericParameters.size

end Program

/-- The types that an added type is named after and the accessors that an added property or event
names are there already. -/
def Operation.NamesExisting (p : Program) : Operation → Prop
  | .type d => ∀ t ∈ d.declaringType, t.index < p.types.size
  | .specification s => ∀ t ∈ s.parts, t.index < p.types.size
  | .property d => ∀ slot ∈ d.accessors, ∀ m ∈ slot.1, m.index < p.methods.size
  | .event d => ∀ slot ∈ d.accessors, ∀ m ∈ slot.1, m.index < p.methods.size
  | _ => True

namespace Program

variable {p : Program} {operation : Operation}

theorem parts_typeNode? (existing : operation.NamesExisting p) {node : TypeNode}
    (added : operation.typeNode? p = some node) : ∀ t ∈ node.parts, t.index < p.types.size := by
  cases operation with
  | type d =>
    cases added
    intro t part
    exact existing t (Option.mem_toList.1 part)
  | specification s =>
    cases added
    exact existing
  | typeReference | genericParameter =>
    cases added
    intro t part
    cases part
  | _ => cases added

theorem Grounded.perform (h : p.Grounded) (existing : operation.NamesExisting p) :
    (p.perform operation).Grounded where
  parts i node found t part := by
    by_cases known : i < p.types.size
    · rw [getElem?_typeOutlines_perform p operation known] at found
      exact h.parts i node found t part
    · have behind : p.typeOutlines.length ≤ i := by rwa [length_typeOutlines, ← Nat.not_lt]
      rw [typeOutlines_perform, List.getElem?_append_right behind] at found
      cases added : operation.typeNode? p with
      | none => simp [added] at found
      | some new =>
        -- at most one node is added, so `i` is the position right behind the old ones
        have last : i - p.typeOutlines.length = 0 := by
          by_contra later
          simp [added, later] at found
        have same : new.outline = node := by simpa [added, last] using found
        rw [← same, TypeNode.parts_outline] at part
        have before := parts_typeNode? existing added t part
        omega
  generic g member := by
    rw [typeOutlines_perform, List.mem_append] at member
    rcases member with old | new
    · exact Nat.lt_of_lt_of_le (h.generic g old)
        (p.extends_perform operation).genericParameters.size_le
    · cases operation with
      | genericParameter owner name =>
        have last : g.index = p.genericParameters.size := by
          simpa [Operation.typeNode?, TypeNode.outline] using congrArg GenericParameterId.index
            (TypeNode.genericParameter.inj (List.mem_singleton.1 new))
        have grown : (p.perform (.genericParameter owner name)).genericParameters.size =
            p.genericParameters.size + 1 := by
          cases owner <;> simp [Program.perform, addGenericParameter,
            listGenericParameter, pushType, modifyType, modifyMethod]
        omega
      | _ => simp [Operation.typeNode?, TypeNode.outline] at new

theorem Grounded.fullName_perform (h : p.Grounded) (operation : Operation) {t : TypeId}
    (known : t.index < p.types.size) : (p.perform operation).fullName t = p.fullName t := by
  refine (nameWithin_congr (fun t => t.index < p.types.size) (fun t known => ?_)
    (fun t node known found part listed => ?_) (fun t g known found => ?_) nameDepth known).symm
  --  The types that are there keep their outlines, are named after types that are there, and stand
  -- for generic parameters that keep their names.
  · rw [← getElem?_typeOutlines, ← getElem?_typeOutlines,
      getElem?_typeOutlines_perform p operation known]
  · have outlined : p.typeOutlines[t.index]? = some node.outline := by
      rw [getElem?_typeOutlines, found]
      rfl
    have before := h.parts t.index node.outline outlined part (by rwa [TypeNode.parts_outline])
    exact Nat.lt_trans before known
  · have listed : .genericParameter g ∈ p.typeOutlines := by
      refine List.mem_iff_getElem?.2 ⟨t.index, ?_⟩
      rw [getElem?_typeOutlines, found]
      rfl
    obtain ⟨d, there⟩ : ∃ d, p.genericParameters[g.index]? = some d :=
      ⟨_, Array.getElem?_eq_getElem (h.generic g listed)⟩
    obtain ⟨kept, found, same⟩ :=
      Option.map_eq_some_iff.1 ((p.extends_perform operation).genericParameters g.index d there)
    have name : kept.name = d.name := (GenericParameter.mk.inj same).2.1
    simp [genericName, Substitution.text?, genericParameter?, there, found, name]

/-! ## The index -/

theorem index_perform (p : Program) (operation : Operation) :
    (p.perform operation).index = match operation with
      | .type _ => p.index.register ((p.perform operation).fullName ⟨p.types.size⟩) ⟨p.types.size⟩
      | _ => p.index := by
  cases operation with
  | type d =>
    have names : (p.perform (.type d)).fullName = (p.pushType (.definition d)).2.fullName :=
      fullName_congr rfl rfl
    rw [names]
    rfl
  | genericParameter owner name => cases owner <;> rfl
  | property d =>
    rw [perform, addProperty]
    exact (tagAccessors_frame _ _).2
  | event d =>
    rw [perform, addEvent]
    exact (tagAccessors_frame _ _).2
  | «attribute» owner a => cases owner <;> rfl
  | entryPoint e =>
    rw [perform, addEntryPoint]
    split <;> rfl
  | _ => rfl

/-- The index of the finished program is that of the program before, with the new type
registered. -/
theorem Grounded.indexTypes_perform (h : p.Grounded) (operation : Operation) :
    (p.perform operation).indexTypes = match operation.typeNode? p with
      | some _ => (p.perform operation).registerType p.indexTypes ⟨p.types.size⟩
      | none => p.indexTypes := by
  have before : ∀ i, i < p.types.size → ∀ index,
      (p.perform operation).registerType index ⟨i⟩ = p.registerType index ⟨i⟩ := by
    intro i known index
    rw [registerType, registerType, h.fullName_perform operation known, isSome_typeDefinition?,
      isSome_typeDefinition?, getElem?_typeOutlines_perform p operation known]
  have earlier : (List.range p.types.size).foldl
      (fun index i => (p.perform operation).registerType index ⟨i⟩) {} = p.indexTypes :=
    List.foldl_ext _ _ _ fun index i member => before i (List.mem_range.1 member) index
  have size : (p.perform operation).types.size =
      p.types.size + (operation.typeNode? p).toList.length := by
    rw [← length_typeOutlines, typeOutlines_perform, List.length_append, length_typeOutlines]
    cases operation.typeNode? p <;> rfl
  rw [indexTypes, size]
  cases operation.typeNode? p with
  | none => exact earlier
  | some node =>
    show (List.range (p.types.size + 1)).foldl _ _ = _
    rw [List.range_succ, List.foldl_append, earlier]
    rfl

/-- The node that an operation adds is registered if it is a definition. -/
theorem isSome_typeDefinition?_perform (p : Program) (operation : Operation) {node : TypeNode}
    (added : operation.typeNode? p = some node) :
    ((p.perform operation).typeDefinition? ⟨p.types.size⟩).isSome = node.definition?.isSome := by
  have last : (p.perform operation).typeOutlines[p.types.size]? = some node.outline := by
    rw [typeOutlines_perform, List.getElem?_append_right (by simp [length_typeOutlines])]
    simp [length_typeOutlines, added]
  rw [isSome_typeDefinition?, last]
  cases node <;> rfl

theorem Grounded.indexed_perform (h : p.Grounded) (indexed : p.index = p.indexTypes)
    (operation : Operation) : (p.perform operation).index = (p.perform operation).indexTypes := by
  have passed {node : TypeNode} (added : operation.typeNode? p = some node)
      (other : node.definition?.isSome = false) :
      (p.perform operation).registerType p.index ⟨p.types.size⟩ = p.index := by
    rw [registerType, isSome_typeDefinition?_perform p operation added, other]
    rfl
  rw [h.indexTypes_perform, index_perform, ← indexed]
  cases operation with
  | type d =>
    have defined := p.isSome_typeDefinition?_perform (.type d) rfl
    exact (if_pos defined).symm
  | specification | typeReference | genericParameter => exact (passed rfl rfl).symm
  | _ => rfl

end Program

/-! ## Accessors -/

namespace Operation

/-- The accessor slots of the property that an operation adds. -/
def propertySlots : Operation → List (Option MethodId × Semantics)
  | .property d => d.accessors
  | _ => []

/-- The accessor slots of the event that an operation adds. -/
def eventSlots : Operation → List (Option MethodId × Semantics)
  | .event d => d.accessors
  | _ => []

end Operation

/-- The part that a method plays, if it is a definition. -/
def MethodNode.part? : MethodNode → Option Semantics
  | .definition d => some d.semantics
  | _ => none

namespace Program

variable {p : Program} {operation : Operation}

/-- The accessor slots of all properties. -/
def propertySlots (p : Program) : List (Option MethodId × Semantics) :=
  p.properties.toList.flatMap Property.accessors

/-- The accessor slots of all events. -/
def eventSlots (p : Program) : List (Option MethodId × Semantics) :=
  p.events.toList.flatMap Event.accessors

/-- No method is an accessor both of a property and of an event. -/
def AccessorsApart (p : Program) : Prop :=
  ∀ slot ∈ p.propertySlots, ∀ m ∈ slot.1, ∀ other ∈ p.eventSlots, m ∉ other.1

theorem propertySlots_perform (p : Program) (operation : Operation) :
    (p.perform operation).propertySlots = p.propertySlots ++ operation.propertySlots := by
  cases operation with
  | property d =>
    rw [perform, addProperty, tagAccessors_eq]
    simp [propertySlots, modifyType, Operation.propertySlots]
  | event d =>
    rw [perform, addEvent, tagAccessors_eq]
    exact (List.append_nil _).symm
  | genericParameter owner name => cases owner <;> exact (List.append_nil _).symm
  | «attribute» owner a =>
    refine Eq.trans ?_ (List.append_nil _).symm
    cases owner with
    | property d => exact flatMap_modify (fun _ => by rfl) p.properties d.index
    | _ => rfl
  | entryPoint e =>
    refine Eq.trans ?_ (List.append_nil _).symm
    rw [perform, addEntryPoint]
    split <;> rfl
  | _ => exact (List.append_nil _).symm

theorem eventSlots_perform (p : Program) (operation : Operation) :
    (p.perform operation).eventSlots = p.eventSlots ++ operation.eventSlots := by
  cases operation with
  | event d =>
    rw [perform, addEvent, tagAccessors_eq]
    simp [eventSlots, modifyType, Operation.eventSlots]
  | property d =>
    rw [perform, addProperty, tagAccessors_eq]
    exact (List.append_nil _).symm
  | genericParameter owner name => cases owner <;> exact (List.append_nil _).symm
  | «attribute» owner a =>
    refine Eq.trans ?_ (List.append_nil _).symm
    cases owner with
    | event d => exact flatMap_modify (fun _ => by rfl) p.events d.index
    | _ => rfl
  | entryPoint e =>
    refine Eq.trans ?_ (List.append_nil _).symm
    rw [perform, addEntryPoint]
    split <;> rfl
  | _ => exact (List.append_nil _).symm

/-- The part that the method at a position plays. -/
def partAt (p : Program) (i : Nat) : Option Semantics := p.methods[i]?.bind MethodNode.part?

theorem exists_of_partAt {i : Nat} {part : Semantics} (plays : p.partAt i = some part) :
    ∃ d, p.methods[i]? = some (.definition d) ∧ d.semantics = part := by
  obtain ⟨node, found, plays⟩ := Option.bind_eq_some_iff.1 plays
  cases node with
  | definition d => exact ⟨d, found, Option.some.inj plays⟩
  | «instance» | reference => cases plays

theorem partAt_modifyMethod (p : Program) (id : MethodId) {f : MethodDefinition → MethodDefinition}
    (same : ∀ d, (f d).semantics = d.semantics) (i : Nat) :
    (p.modifyMethod id f).partAt i = p.partAt i := by
  simp only [partAt, modifyMethod, Array.getElem?_modify]
  cases p.methods[i]? with
  | none => split <;> rfl
  | some node => split <;> cases node <;> simp [MethodNode.part?, same]

theorem partAt_pushMethod (p : Program) (node : MethodNode) {i : Nat} (known : i < p.methods.size) :
    (p.pushMethod node).2.partAt i = p.partAt i := by
  rw [partAt, pushMethod, Array.getElem?_push, if_neg (by omega), partAt]

theorem partAt_tagAccessors (p : Program) (slots : List (Option MethodId × Semantics)) (i : Nat) :
    (p.tagAccessors slots).partAt i = (p.partAt i).map (lastPart slots ⟨i⟩).getD := by
  rw [partAt, getElem?_tagAccessors, partAt]
  cases p.methods[i]? with
  | none => rfl
  | some node => cases node <;> rfl

/-- An operation gives a method that exists the part that its last slot naming it assigns. -/
theorem partAt_perform (p : Program) (operation : Operation) {i : Nat}
    (known : i < p.methods.size) :
    (p.perform operation).partAt i =
      (p.partAt i).map (lastPart (operation.propertySlots ++ operation.eventSlots) ⟨i⟩).getD := by
  have none : (p.partAt i).map (lastPart [] ⟨i⟩).getD = p.partAt i := by
    cases p.partAt i <;> rfl
  cases operation with
  | property d =>
    rw [perform, addProperty, partAt_tagAccessors]
    rfl
  | event d =>
    rw [perform, addEvent, partAt_tagAccessors]
    rfl
  | method d => exact (p.partAt_pushMethod _ known).trans none.symm
  | methodReference r => exact (p.partAt_pushMethod _ known).trans none.symm
  | methodInstance element arguments => exact (p.partAt_pushMethod _ known).trans none.symm
  | parameter m name type => exact (partAt_modifyMethod _ m (fun _ => by rfl) i).trans none.symm
  | genericParameter owner name =>
    cases owner with
    | type t => exact none.symm
    | method m => exact (partAt_modifyMethod _ m (fun _ => by rfl) i).trans none.symm
  | «attribute» owner a =>
    cases owner with
    | method m => exact (partAt_modifyMethod _ m (fun _ => by rfl) i).trans none.symm
    | _ => exact none.symm
  | entryPoint e =>
    refine Eq.trans ?_ none.symm
    rw [perform, addEntryPoint]
    split <;> rfl
  | _ => exact none.symm

/-! ## Everything together -/

/-- The derived data of a program are what its arenas say. -/
structure UpToDate (p : Program) : Prop where
  grounded : p.Grounded
  indexed : p.index = p.indexTypes
  slots : ∀ slot ∈ p.accessorSlots, ∀ m, slot.1 = some m → m.index < p.methods.size
  tagged : p.AccessorsApart → p.Tagged p.accessorSlots

theorem upToDate_empty : UpToDate {} where
  grounded := ⟨fun i node found => by simp [typeOutlines] at found, fun g member => by cases member⟩
  indexed := rfl
  slots slot member := by cases member
  tagged _ i d part found := by simp at found

theorem accessorSlots_perform (p : Program) (operation : Operation) :
    (p.perform operation).accessorSlots = (p.propertySlots ++ operation.propertySlots) ++
      (p.eventSlots ++ operation.eventSlots) := by
  rw [← propertySlots_perform, ← eventSlots_perform]
  rfl

theorem AccessorsApart.of_perform (apart : (p.perform operation).AccessorsApart) :
    p.AccessorsApart := by
  intro slot member m named other member'
  refine apart slot ?_ m named other ?_
  · rw [propertySlots_perform]
    exact List.mem_append_left _ member
  · rw [eventSlots_perform]
    exact List.mem_append_left _ member'

/-- The slots of an operation name methods that exist. -/
theorem lt_size_of_slot (existing : operation.NamesExisting p) {slot : Option MethodId × Semantics}
    (member : slot ∈ operation.propertySlots ++ operation.eventSlots) {m : MethodId}
    (named : slot.1 = some m) : m.index < p.methods.size := by
  cases operation with
  | property d =>
    refine existing slot ?_ m named
    simpa [Operation.propertySlots, Operation.eventSlots] using member
  | event d => exact existing slot member m named
  | _ => cases member

/-- The slots of an operation are the last of their kind, and if they assign a part to a method then
no slot of the other kind does. So the parts are those of all the slots together. -/
theorem lastPart_accessorSlots_perform (apart : (p.perform operation).AccessorsApart)
    (m : MethodId) :
    lastPart (p.perform operation).accessorSlots m =
      (lastPart (operation.propertySlots ++ operation.eventSlots) m).or
        (lastPart p.accessorSlots m) := by
  have old : lastPart p.accessorSlots m =
      (lastPart p.eventSlots m).or (lastPart p.propertySlots m) :=
    lastPart_append _ _ _
  rw [accessorSlots_perform, old]
  simp only [lastPart_append, Option.or_assoc]
  cases added : lastPart operation.propertySlots m with
  | none => simp
  | some part =>
    have quiet : lastPart p.eventSlots m = none ∧ lastPart operation.eventSlots m = none := by
      obtain ⟨slot, member, named⟩ := exists_slot_of_lastPart added
      have silent := apart slot (by
        rw [propertySlots_perform]
        exact List.mem_append_right _ member) m named
      rw [eventSlots_perform] at silent
      constructor
      · exact lastPart_eq_none_iff.2 fun other member =>
          silent other (List.mem_append_left _ member)
      · exact lastPart_eq_none_iff.2 fun other member =>
          silent other (List.mem_append_right _ member)
    simp [quiet]

theorem UpToDate.lt_size_of_slot (h : p.UpToDate) (existing : operation.NamesExisting p)
    {slot : Option MethodId × Semantics} (member : slot ∈ (p.perform operation).accessorSlots)
    {m : MethodId} (named : slot.1 = some m) : m.index < p.methods.size := by
  rw [accessorSlots_perform] at member
  rcases List.mem_append.1 member with property | event
  · rcases List.mem_append.1 property with old | new
    · exact h.slots slot (List.mem_append_left _ old) m named
    · exact Program.lt_size_of_slot existing (List.mem_append_left _ new) named
  · rcases List.mem_append.1 event with old | new
    · exact h.slots slot (List.mem_append_right _ old) m named
    · exact Program.lt_size_of_slot existing (List.mem_append_right _ new) named

theorem UpToDate.perform (h : p.UpToDate) (existing : operation.NamesExisting p) :
    (p.perform operation).UpToDate where
  grounded := h.grounded.perform existing
  indexed := h.grounded.indexed_perform h.indexed operation
  slots slot member m named :=
    Nat.lt_of_lt_of_le (h.lt_size_of_slot existing member named)
      (p.extends_perform operation).methods.size_le
  tagged apart i d part found assigned := by
    obtain ⟨slot, member, named⟩ := exists_slot_of_lastPart assigned
    have known : i < p.methods.size := h.lt_size_of_slot existing member named
    have plays : (p.perform operation).partAt i = some d.semantics := by
      rw [partAt, found]
      rfl
    rw [partAt_perform p operation known, Option.map_eq_some_iff] at plays
    obtain ⟨old, played, new⟩ := plays
    rw [lastPart_accessorSlots_perform apart] at assigned
    -- Either the operation assigns the part just now, or the method has played it before.
    cases added : lastPart (operation.propertySlots ++ operation.eventSlots) ⟨i⟩ with
    | some newPart =>
      have same : newPart = part := by simpa [added] using assigned
      rw [← new, added, same]
      rfl
    | none =>
      obtain ⟨before, there, rfl⟩ := exists_of_partAt played
      rw [← new, added]
      exact h.tagged apart.of_perform i before part there (by simpa [added] using assigned)

/-- Derived data that are kept up step by step. In a program built from nothing by operations that
name only types and accessors that exist, and in which no method is an accessor both of a property
and of an event, loading would change nothing: each full name leads to the first definition that
bears it, no other text leads anywhere, and each method plays the part that the last slot naming it
assigns. -/
theorem rebuild_build {operations : List Operation}
    (admitted : Admits (fun p operation => operation.NamesExisting p) {} operations)
    (apart : (build {} operations).AccessorsApart) :
    (build {} operations).rebuild = build {} operations ∧
      (∀ name id, (build {} operations).findType? name = some id ↔
        (build {} operations).bears name id ∧
          ∀ other : TypeId, other.index < id.index → ¬ (build {} operations).bears name other) ∧
      (build {} operations).Tagged (build {} operations).accessorSlots := by
  have kept : (build {} operations).UpToDate :=
    admitted.preserves UpToDate (fun _ _ holds existing => holds.perform existing) upToDate_empty
  have tagged := kept.tagged apart
  exact ⟨rebuild_eq_self kept.indexed tagged, findType?_eq_some_iff kept.indexed, tagged⟩

/-- A type nested in an instance of a generic type, a second definition of a name, and accessors of
a property and of an event. -/
def cabinet : List Operation := [
  .type { namespaceName := "App", name := "Box" },
  .genericParameter (.type ⟨0⟩) "T",
  .specification (.genericInstance ⟨0⟩ [⟨1⟩]),
  .type { name := "Lid", declaringType := some ⟨2⟩ },
  .type { namespaceName := "App", name := "Box" },
  .method { declaringType := ⟨0⟩, name := "get_Size", returnType := ⟨1⟩ },
  .property { declaringType := ⟨0⟩, name := "Size", propertyType := ⟨1⟩, getter := some ⟨0⟩ },
  .method { declaringType := ⟨0⟩, name := "add_Opened", returnType := ⟨1⟩ },
  .event { declaringType := ⟨0⟩, name := "Opened", eventType := ⟨1⟩, add := some ⟨1⟩ }]

theorem rebuild_cabinet :
    Admits (fun p operation => operation.NamesExisting p) {} cabinet ∧
      (build {} cabinet).AccessorsApart ∧ (build {} cabinet).rebuild = build {} cabinet ∧
      (build {} cabinet).findType? "App.Box" = some ⟨0⟩ ∧
      (build {} cabinet).findType? "App.Box<T>/Lid" = some ⟨3⟩ ∧
      ((build {} cabinet).methodDefinition? ⟨0⟩).map (·.semantics) = some .getter ∧
      ((build {} cabinet).methodDefinition? ⟨1⟩).map (·.semantics) = some .addOn := by
  have admitted : Admits (fun p operation => operation.NamesExisting p) {} cabinet := by
    simp only [cabinet, Admits, Operation.NamesExisting]
    decide
  have apart : (build {} cabinet).AccessorsApart := by
    unfold AccessorsApart
    decide
  refine ⟨admitted, apart, (rebuild_build admitted apart).1, ?_, ?_, ?_, ?_⟩ <;> decide +kernel

end Program

end Liveset
