import Liveset.Program.Document
import Liveset.Proofs.Program.Denotation

/-!
# The derived data of a program

What loading recomputes, said without its loops. The index leads from a name to the first definition
that bears it (`Program.findType?_eq_some_iff`), and a method plays the part that the last accessor
slot naming it assigns (`Program.getElem?_tagAccessors`). Names are read from the type nodes and the
generic parameters alone, which loading leaves as they are, so loading what was loaded changes
nothing (`Program.rebuild_rebuild`).
-/

set_option autoImplicit false

namespace Liveset

/-! ## What a name is read from -/

/-- The types a derived type is built from. -/
def TypeSpecification.parts : TypeSpecification → List TypeId
  | .genericInstance element arguments => element :: arguments
  | .array element _ => [element]
  | .byReference element => [element]
  | .pointer element => [element]
  | .functionPointer returnType parameters => returnType :: parameters
  | .requiredModifier element modifier => [element, modifier]
  | .optionalModifier element modifier => [element, modifier]

/-- The types whose names the name of a node is put together from. -/
def TypeNode.parts : TypeNode → List TypeId
  | .definition d => d.declaringType.toList
  | .specification s => s.parts
  | .genericParameter _ | .reference _ => []

/-- The node without the lists of what it owns and carries. -/
def TypeNode.outline : TypeNode → TypeNode
  | .definition d => .definition { d with
      methods := [], fields := [], properties := [], events := [], genericParameters := [],
      attributes := [] }
  | node => node

/-- The name of a node, given the names of types and of generic parameters. -/
def TypeNode.spell (name : TypeId → String) (generic : GenericParameterId → String) :
    TypeNode → String
  | .definition d => Program.definitionName (d.declaringType.map name) d
  | .reference fullName => fullName
  | .genericParameter g => generic g
  | .specification t => Program.specificationName name t

theorem TypeNode.spell_outline (name : TypeId → String) (generic : GenericParameterId → String)
    (node : TypeNode) : node.outline.spell name generic = node.spell name generic := by
  cases node <;> rfl

theorem TypeNode.parts_outline (node : TypeNode) : node.outline.parts = node.parts := by
  cases node <;> rfl

/-- The name of a node is put together from the names of its parts. -/
theorem TypeNode.spell_congr {name name' : TypeId → String}
    {generic generic' : GenericParameterId → String} {node : TypeNode}
    (parts : ∀ t ∈ node.parts, name t = name' t)
    (parameter : ∀ g, node = .genericParameter g → generic g = generic' g) :
    node.spell name generic = node.spell name' generic' := by
  cases node with
  | definition d => cases outer : d.declaringType <;> simp_all [spell, TypeNode.parts]
  | specification s =>
    cases s with
    | genericInstance element arguments =>
      obtain ⟨head, tail⟩ := List.forall_mem_cons.1 parts
      simp only [spell, Program.specificationName, head, List.map_congr_left tail]
    | functionPointer returnType parameters =>
      obtain ⟨head, tail⟩ := List.forall_mem_cons.1 parts
      simp only [spell, Program.specificationName, head, List.map_congr_left tail]
    | array | byReference | pointer | requiredModifier | optionalModifier =>
      simp_all [spell, TypeNode.parts, TypeSpecification.parts, Program.specificationName]
  | genericParameter g => exact parameter g rfl
  | reference fullName => rfl

namespace Program

variable {p q : Program}

theorem nameWithin_succ (p : Program) (s : Substitution) (depth : Nat) (id : TypeId) :
    p.nameWithin s (depth + 1) id =
      ((p.type? id).map (TypeNode.spell (p.nameWithin s depth) (p.genericName s))).getD "" := by
  rw [nameWithin]
  cases p.type? id with
  | none => rfl
  | some node => cases node <;> rfl

/-- Two programs that agree on the outlines of some types give them the same names, if the parts of
these types are among them and the generic parameters among them have the same names. -/
theorem nameWithin_congr (known : TypeId → Prop) {s : Substitution}
    (outlines : ∀ t, known t → (p.type? t).map TypeNode.outline = (q.type? t).map TypeNode.outline)
    (parts : ∀ t node, known t → p.type? t = some node → ∀ part ∈ node.parts, known part)
    (generic : ∀ t g, known t → p.type? t = some (.genericParameter g) →
      p.genericName s g = q.genericName s g)
    (depth : Nat) {t : TypeId} (member : known t) :
    p.nameWithin s depth t = q.nameWithin s depth t := by
  induction depth generalizing t with
  | zero => rfl
  | succ depth ih =>
    have same := outlines t member
    rw [nameWithin_succ, nameWithin_succ]
    cases ofP : p.type? t with
    | none =>
      cases ofQ : q.type? t with
      | none => rfl
      | some node => simp [ofP, ofQ] at same
    | some node =>
      cases ofQ : q.type? t with
      | none => simp [ofP, ofQ] at same
      | some node' =>
        have same : node.outline = node'.outline := by simpa [ofP, ofQ] using same
        simp only [Option.map_some, Option.getD_some]
        rw [← node'.spell_outline, ← same, node.spell_outline]
        refine TypeNode.spell_congr (fun part listed => ih (parts t node member ofP part listed)) ?_
        rintro g rfl
        exact generic t g member ofP

/-! ## The index -/

/-- The type of a handle is a definition with the full name `name`. -/
def bears (p : Program) (name : String) (id : TypeId) : Bool :=
  (p.typeDefinition? id).isSome && p.fullName id = name

theorem find?_registerType (p : Program) (index : NameIndex) (id : TypeId) (name : String) :
    (p.registerType index id).find? name =
      (index.find? name).or (if p.bears name id then some id else none) := by
  unfold registerType bears
  cases (p.typeDefinition? id).isSome with
  | false => simp
  | true => simp [NameIndex.find?_register, eq_comm]

theorem find?_foldl_registerType (p : Program) (handles : List Nat) (index : NameIndex)
    (name : String) :
    (handles.foldl (fun index i => p.registerType index ⟨i⟩) index).find? name =
      (index.find? name).or ((handles.find? fun i => p.bears name ⟨i⟩).map TypeId.mk) := by
  induction handles generalizing index with
  | nil => simp
  | cons i rest ih =>
    rw [List.foldl_cons, ih, find?_registerType, Option.or_assoc, List.find?_cons]
    cases p.bears name ⟨i⟩ <;> simp

theorem find?_indexTypes (p : Program) (name : String) :
    p.indexTypes.find? name =
      ((List.range p.types.size).find? fun i => p.bears name ⟨i⟩).map TypeId.mk := by
  rw [indexTypes, find?_foldl_registerType]
  rfl

/-- A definition that bears a name stands in the arena. -/
theorem lt_size_of_bears {name : String} {id : TypeId} (borne : p.bears name id) :
    id.index < p.types.size := by
  rw [bears, Bool.and_eq_true] at borne
  exact lt_size_of_isSome borne.1

/-- The index of a program leads from each full name to the first definition that bears it, and from
no other text to anything. -/
theorem findType?_eq_some_iff (indexed : p.index = p.indexTypes) (name : String) (id : TypeId) :
    p.findType? name = some id ↔
      p.bears name id ∧ ∀ other : TypeId, other.index < id.index → ¬ p.bears name other := by
  rw [findType?, indexed, find?_indexTypes, Option.map_eq_some_iff]
  constructor
  · rintro ⟨i, first, rfl⟩
    obtain ⟨borne, -, earlier⟩ := List.find?_range_eq_some.1 first
    exact ⟨borne, fun other before => by simpa using earlier other.index before⟩
  · rintro ⟨borne, earlier⟩
    refine ⟨id.index, List.find?_range_eq_some.2 ⟨borne, ?_, fun j before => ?_⟩, rfl⟩
    · exact List.mem_range.2 (lt_size_of_bears borne)
    · simpa using earlier ⟨j⟩ before

/-! ## The parts of methods -/

/-- The part that the last of the slots naming a method assigns to it. -/
def lastPart (slots : List (Option MethodId × Semantics)) (id : MethodId) : Option Semantics :=
  (slots.reverse.find? fun slot => slot.1 = some id).map (·.2)

theorem lastPart_append (first second : List (Option MethodId × Semantics)) (id : MethodId) :
    lastPart (first ++ second) id = (lastPart second id).or (lastPart first id) := by
  simp only [lastPart, List.reverse_append, List.find?_append]
  cases List.find? (fun slot => slot.1 = some id) second.reverse <;> simp

theorem lastPart_eq_none_iff {slots : List (Option MethodId × Semantics)} {id : MethodId} :
    lastPart slots id = none ↔ ∀ slot ∈ slots, slot.1 ≠ some id := by
  simp [lastPart]

/-- A part is assigned by a slot that names the method. -/
theorem mem_of_lastPart {slots : List (Option MethodId × Semantics)} {id : MethodId}
    {part : Semantics} (assigned : lastPart slots id = some part) : (some id, part) ∈ slots := by
  obtain ⟨⟨named, _⟩, found, rfl⟩ := Option.map_eq_some_iff.1 assigned
  obtain rfl : named = some id := by simpa using List.find?_some found
  exact List.mem_reverse.1 (List.mem_of_find?_eq_some found)

theorem exists_slot_of_lastPart {slots : List (Option MethodId × Semantics)} {id : MethodId}
    {part : Semantics} (assigned : lastPart slots id = some part) :
    ∃ slot ∈ slots, slot.1 = some id :=
  ⟨_, mem_of_lastPart assigned, rfl⟩

end Program

/-- The node with the part that was assigned to it, if one was. -/
def MethodNode.withPart (part : Option Semantics) : MethodNode → MethodNode
  | .definition d => .definition { d with semantics := part.getD d.semantics }
  | node => node

theorem MethodNode.withPart_none : MethodNode.withPart none = id := by
  funext node
  cases node <;> rfl

theorem MethodNode.withPart_withPart (first second : Option Semantics) (node : MethodNode) :
    (node.withPart first).withPart second = node.withPart (second.or first) := by
  cases node <;> cases second <;> rfl

namespace Program

variable {p q : Program}

theorem getElem?_tagAccessor (p : Program) (slot : Option MethodId × Semantics) (i : Nat) :
    (p.tagAccessor slot).methods[i]? =
      p.methods[i]?.map (MethodNode.withPart (lastPart [slot] ⟨i⟩)) := by
  obtain ⟨named, part⟩ := slot
  cases named with
  | none => simp [tagAccessor, lastPart, MethodNode.withPart_none]
  | some id =>
    by_cases same : id.index = i
    · subst same
      simp only [tagAccessor, modifyMethod, Array.getElem?_modify, lastPart, List.reverse_singleton,
        List.find?_cons, decide_true, if_true, Option.map_some]
      congr 1
    · have other : id ≠ ⟨i⟩ := fun h => same (congrArg MethodId.index h)
      simp [tagAccessor, modifyMethod, Array.getElem?_modify, lastPart, same, other,
        MethodNode.withPart_none]

/-- Filling in accessor slots gives each method its last part. -/
theorem getElem?_tagAccessors (p : Program) (slots : List (Option MethodId × Semantics)) (i : Nat) :
    (p.tagAccessors slots).methods[i]? =
      p.methods[i]?.map (MethodNode.withPart (lastPart slots ⟨i⟩)) := by
  induction slots generalizing p with
  | nil => simp [tagAccessors, lastPart, MethodNode.withPart_none]
  | cons slot rest ih =>
    have append : lastPart (slot :: rest) ⟨i⟩ = (lastPart rest ⟨i⟩).or (lastPart [slot] ⟨i⟩) :=
      lastPart_append [slot] rest ⟨i⟩
    rw [tagAccessors, List.foldl_cons, ← tagAccessors, ih, getElem?_tagAccessor, append,
      Option.map_map]
    congr 1
    funext node
    exact node.withPart_withPart _ _

/-- Filling in accessor slots changes nothing but methods. -/
theorem tagAccessors_eq (p : Program) (slots : List (Option MethodId × Semantics)) :
    p.tagAccessors slots = { p with methods := (p.tagAccessors slots).methods } := by
  induction slots generalizing p with
  | nil => rfl
  | cons slot rest ih =>
    have step : p.tagAccessor slot = { p with methods := (p.tagAccessor slot).methods } := by
      unfold tagAccessor
      split <;> rfl
    rw [tagAccessors, List.foldl_cons, ← tagAccessors, ih, step]

/-- Every method already plays the part that the last slot naming it assigns. -/
def Tagged (p : Program) (slots : List (Option MethodId × Semantics)) : Prop :=
  ∀ i d part, p.methods[i]? = some (.definition d) → lastPart slots ⟨i⟩ = some part →
    d.semantics = part

theorem Tagged.tagAccessors_eq_self {slots : List (Option MethodId × Semantics)}
    (tagged : p.Tagged slots) : p.tagAccessors slots = p := by
  have same : (p.tagAccessors slots).methods = p.methods := by
    refine Array.ext_getElem? fun i => ?_
    rw [getElem?_tagAccessors]
    cases found : p.methods[i]? with
    | none => rfl
    | some node =>
      cases node with
      | definition d =>
        cases assigned : lastPart slots ⟨i⟩ with
        | none => rfl
        | some part => simp [MethodNode.withPart, ← tagged i d part found assigned]
      | «instance» | reference => rfl
  rw [tagAccessors_eq, same]

theorem tagged_tagAccessors (p : Program) (slots : List (Option MethodId × Semantics)) :
    (p.tagAccessors slots).Tagged slots := by
  intro i d part found assigned
  rw [getElem?_tagAccessors, assigned, Option.map_eq_some_iff] at found
  obtain ⟨node, -, assigned⟩ := found
  cases node with
  | definition d' =>
    cases assigned
    rfl
  | «instance» | reference => cases assigned

/-! ## Rebuilding -/

theorem fullName_congr (types : p.types = q.types)
    (generic : p.genericParameters = q.genericParameters) : p.fullName = q.fullName := by
  funext id
  refine nameWithin_congr (fun _ => True) (fun t _ => ?_) (fun _ _ _ _ _ _ => trivial)
    (fun t g _ _ => ?_) nameDepth trivial
  · rw [type?, type?, types]
  · rw [genericName, genericName, genericParameter?, genericParameter?, generic]

theorem indexTypes_congr (types : p.types = q.types)
    (generic : p.genericParameters = q.genericParameters) : p.indexTypes = q.indexTypes := by
  have names := fullName_congr types generic
  have register : p.registerType = q.registerType := by
    funext index id
    rw [registerType, registerType, names, typeDefinition?, typeDefinition?, type?, type?, types]
  rw [indexTypes, indexTypes, types, register]

/-- Rebuilding changes the index and the parts of methods only. -/
theorem rebuild_eq (p : Program) :
    p.rebuild = { p with index := p.indexTypes, methods := p.rebuild.methods } := by
  rw [rebuild, tagAccessors_eq]

theorem index_rebuild (p : Program) : p.rebuild.index = p.rebuild.indexTypes := by
  have types : p.rebuild.types = p.types := by rw [rebuild_eq]
  have generic : p.rebuild.genericParameters = p.genericParameters := by rw [rebuild_eq]
  have index : p.rebuild.index = p.indexTypes := by rw [rebuild_eq]
  rw [index, indexTypes_congr types generic]

theorem tagged_rebuild (p : Program) : p.rebuild.Tagged p.rebuild.accessorSlots := by
  have slots : p.rebuild.accessorSlots = p.accessorSlots := by
    rw [rebuild_eq]
    rfl
  rw [slots]
  exact tagged_tagAccessors _ _

/-- A program whose derived data are in order is left alone. -/
theorem rebuild_eq_self (indexed : p.index = p.indexTypes) (tagged : p.Tagged p.accessorSlots) :
    p.rebuild = p := by
  rw [rebuild, ← indexed]
  exact tagged.tagAccessors_eq_self

theorem rebuild_rebuild (p : Program) : p.rebuild.rebuild = p.rebuild :=
  rebuild_eq_self p.index_rebuild p.tagged_rebuild

/-- Reading a document is reading a form and rebuilding the derived data. -/
theorem exists_of_parse? {text : String} {p : Program} (parsed : parse? text = some p) :
    ∃ value q, ofForm? value = some q ∧ p = q.rebuild := by
  obtain ⟨value, -, parsed⟩ := Option.bind_eq_some_iff.1 parsed
  obtain ⟨q, read, rebuilt⟩ := Option.bind_eq_some_iff.1 parsed
  cases rebuilt
  exact ⟨value, q, read, rfl⟩

theorem tagged_of_parse? {text : String} {p : Program} (parsed : parse? text = some p) :
    p.Tagged p.accessorSlots := by
  obtain ⟨_, q, -, rfl⟩ := exists_of_parse? parsed
  exact q.tagged_rebuild

theorem indexed_of_parse? {text : String} {p : Program} (parsed : parse? text = some p) :
    p.index = p.indexTypes := by
  obtain ⟨_, q, -, rfl⟩ := exists_of_parse? parsed
  exact q.index_rebuild

end Program

end Liveset
