import Liveset.Program.Document
import Liveset.Program.Hierarchy
import Mathlib.Data.List.Nodup
import Mathlib.Data.List.Perm.Subperm

/-!
# What names and type nodes denote

The index that loading builds registers type definitions only, so in a program that was read from a
document every registered name denotes a definition (`Program.namesDefinitions_of_parse?`). A type
node denotes what its name or the end of its chain of elements denotes; where it denotes anything,
that is a definition as well (`Program.NamesDefinitions.isSome_typeDefinition?`). So base chains
consist of definitions.
-/

set_option autoImplicit false

namespace Liveset

/-- Different handles below a bound are no more than the bound. -/
theorem length_le_size {α : Type} (handle : Nat → α) {size : Nat} {ids : List α}
    (nodup : ids.Nodup) (inside : ∀ id ∈ ids, ∃ index < size, handle index = id) :
    ids.length ≤ size := by
  have subset : ids ⊆ (List.range size).map handle := by
    intro id listed
    obtain ⟨index, bound, same⟩ := inside id listed
    exact List.mem_map.2 ⟨index, List.mem_range.2 bound, same⟩
  simpa using (nodup.subperm subset).length_le

/-- The first element of a list with a property. -/
def FirstIn {α : Type} (property : α → Prop) (list : List α) (a : α) : Prop :=
  ∃ before after, list = before ++ a :: after ∧ property a ∧ ∀ other ∈ before, ¬ property other

/-- A search finds the first element that passes its test. -/
theorem find?_eq_some_iff_firstIn {α : Type} {test : α → Bool} {property : α → Prop}
    (tests : ∀ a, test a ↔ property a) {list : List α} {a : α} :
    list.find? test = some a ↔ FirstIn property list a := by
  rw [List.find?_eq_some_iff_append, tests]
  constructor
  · rintro ⟨passed, before, after, split, others⟩
    refine ⟨before, after, split, passed, fun other listed again => ?_⟩
    have failed := others other listed
    rw [(tests other).2 again] at failed
    cases failed
  · rintro ⟨before, after, split, passed, others⟩
    refine ⟨passed, before, after, split, fun other listed => ?_⟩
    rw [Bool.not_eq_true', ← Bool.not_eq_true, tests]
    exact others other listed

/-- A name that is registered keeps its definition; a new one gets the definition it is registered
for. -/
theorem NameIndex.find?_register (index : NameIndex) (name name' : String) (id : TypeId) :
    (index.register name id).find? name' =
      (index.find? name').or (if name' = name then some id else none) := by
  unfold register
  split
  · rename_i old taken
    by_cases same : name' = name
    · simp [same, taken]
    · simp [same]
  · rename_i free
    by_cases same : name' = name
    · subst same
      rw [free]
      simp [find?]
    · simp [find?, List.lookup_cons, beq_eq_false_iff_ne.2 same, same]

namespace Program

variable {p : Program}

theorem type?_of_typeDefinition? {id : TypeId} {d : TypeDefinition}
    (defined : p.typeDefinition? id = some d) : p.type? id = some (.definition d) := by
  obtain ⟨node, found, isDefinition⟩ := Option.bind_eq_some_iff.1 defined
  cases node with
  | definition d' =>
    cases isDefinition
    exact found
  | _ => cases isDefinition

theorem lt_size_of_type? {node : TypeNode} {id : TypeId} (found : p.type? id = some node) :
    id.index < p.types.size :=
  (Array.getElem?_eq_some_iff.1 found).1

/-- A definition stands in the arena. -/
theorem lt_size_of_isSome {id : TypeId} (defined : (p.typeDefinition? id).isSome) :
    id.index < p.types.size := by
  obtain ⟨d, defined⟩ := Option.isSome_iff_exists.1 defined
  exact lt_size_of_type? (type?_of_typeDefinition? defined)

theorem method?_of_methodDefinition? {id : MethodId} {d : MethodDefinition}
    (defined : p.methodDefinition? id = some d) : p.method? id = some (.definition d) := by
  obtain ⟨node, found, isDefinition⟩ := Option.bind_eq_some_iff.1 defined
  cases node with
  | definition d' =>
    cases isDefinition
    exact found
  | _ => cases isDefinition

theorem field?_of_fieldDefinition? {id : FieldId} {d : FieldDefinition}
    (defined : p.fieldDefinition? id = some d) : p.field? id = some (.definition d) := by
  obtain ⟨node, found, isDefinition⟩ := Option.bind_eq_some_iff.1 defined
  cases node with
  | definition d' =>
    cases isDefinition
    exact found
  | _ => cases isDefinition

/-- Every registered name denotes a type definition. -/
def NamesDefinitions (p : Program) : Prop :=
  ∀ name id, p.findType? name = some id → (p.typeDefinition? id).isSome

/-! ## The rebuilt index -/

theorem isSome_typeDefinition?_of_foldl (handles : List Nat) {index : NameIndex}
    (start : ∀ name id, index.find? name = some id → (p.typeDefinition? id).isSome)
    {name : String} {id : TypeId}
    (found : (handles.foldl (fun index i => p.registerType index ⟨i⟩) index).find? name = some id) :
    (p.typeDefinition? id).isSome := by
  induction handles generalizing index with
  | nil => exact start name id found
  | cons i rest ih =>
    -- A handle is registered only if it is a definition, and never in place of another one.
    refine ih (fun name id listed => ?_) found
    simp only [registerType] at listed
    split at listed
    · rename_i defined
      rw [NameIndex.find?_register, Option.or_eq_some_iff] at listed
      rcases listed with old | ⟨-, new⟩
      · exact start name id old
      · split at new
        · cases new
          exact defined
        · cases new
    · exact start name id listed

theorem tagAccessors_frame (p : Program) (slots : List (Option MethodId × Semantics)) :
    (p.tagAccessors slots).types = p.types ∧ (p.tagAccessors slots).index = p.index := by
  induction slots generalizing p with
  | nil => exact ⟨rfl, rfl⟩
  | cons slot rest ih =>
    obtain ⟨types, index⟩ := ih (p.tagAccessor slot)
    have kept : (p.tagAccessor slot).types = p.types ∧ (p.tagAccessor slot).index = p.index := by
      unfold tagAccessor
      split <;> exact ⟨rfl, rfl⟩
    exact ⟨types.trans kept.1, index.trans kept.2⟩

theorem namesDefinitions_rebuild (p : Program) : p.rebuild.NamesDefinitions := by
  intro name id found
  obtain ⟨types, index⟩ := tagAccessors_frame { p with index := p.indexTypes } p.accessorSlots
  have same : p.rebuild.typeDefinition? id = p.typeDefinition? id := by
    simp only [typeDefinition?, type?, rebuild, types]
  rw [findType?, rebuild, index] at found
  rw [same]
  exact isSome_typeDefinition?_of_foldl _ (fun name id listed => by cases listed) found

theorem namesDefinitions_of_parse? {text : String} (parsed : parse? text = some p) :
    p.NamesDefinitions := by
  simp only [parse?, Option.bind_eq_bind, Option.bind_eq_some_iff, Option.pure_def,
    Option.some.injEq] at parsed
  obtain ⟨value, -, read, -, rfl⟩ := parsed
  exact namesDefinitions_rebuild read

/-! ## Type nodes -/

theorem NamesDefinitions.isSome_of_resolveTypeWithin (h : p.NamesDefinitions) {fuel : Nat}
    {id target : TypeId} (resolved : p.resolveTypeWithin fuel id = some target) :
    (p.typeDefinition? target).isSome := by
  induction fuel generalizing id with
  | zero => cases resolved
  | succ fuel ih =>
    rw [resolveTypeWithin] at resolved
    split at resolved
    · rename_i d found
      cases resolved
      simp [typeDefinition?, found, TypeNode.definition?]
    · exact h _ _ resolved
    · cases resolved
    · obtain ⟨element, -, resolved⟩ := Option.bind_eq_some_iff.1 resolved
      exact ih resolved
    · cases resolved

/-- What a type node denotes is a definition. -/
theorem NamesDefinitions.isSome_typeDefinition? (h : p.NamesDefinitions) {id target : TypeId}
    (resolved : p.resolveType? id = some target) : (p.typeDefinition? target).isSome :=
  h.isSome_of_resolveTypeWithin resolved

theorem NamesDefinitions.isSome_of_mem_baseTypesFrom (h : p.NamesDefinitions) {fuel : Nat}
    {seen : List TypeId} {reference : Option TypeId} {target : TypeId}
    (member : target ∈ p.baseTypesFrom fuel seen reference) :
    (p.typeDefinition? target).isSome := by
  induction fuel generalizing seen reference with
  | zero => cases member
  | succ fuel ih =>
    rw [baseTypesFrom] at member
    split at member
    · cases member
    · rename_i base denoted
      split at member
      · cases member
      · rcases List.mem_cons.1 member with rfl | later
        · obtain ⟨id, -, resolved⟩ := Option.bind_eq_some_iff.1 denoted
          exact h.isSome_typeDefinition? resolved
        · exact ih later

end Program

end Liveset
