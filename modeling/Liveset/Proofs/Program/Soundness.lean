import Liveset.Proofs.Program.RoundTrip

/-!
# Resolution is sound

Resolution takes a handle to the definition it denotes, and a definition to itself. In a program
that was read from a document a name leads to the first definition that bears it, so whatever a
type, method or field resolves to is a definition, and resolving that again changes nothing.

What a method resolves to is the definition of a method like it: one with the same name, whose
parameter types have the same full names. For a reference it is the first such method that the
definition of its declaring type lists (`resolveMethodReference?_eq_some_iff`). An instance is
resolved through the method it instantiates, from which it has its name and signature
(`uninstantiated?_of_instance`).
-/

set_option autoImplicit false

namespace Liveset

namespace Program

variable {p : Program}

/-! ## Types -/

/-- The type is a definition with this full name, and no definition of a smaller handle has it. -/
def FirstNamed (p : Program) (name : String) (id : TypeId) : Prop :=
  (p.typeDefinition? id).isSome ∧ p.fullName id = name ∧
    ∀ other, (p.typeDefinition? other).isSome → p.fullName other = name → id.index ≤ other.index

theorem findType?_eq_some_iff_firstNamed (indexed : p.index = p.indexTypes) (name : String)
    (id : TypeId) :
    p.findType? name = some id ↔ p.FirstNamed name id := by
  rw [findType?_eq_some_iff indexed]
  simp only [bears, Bool.and_eq_true, decide_eq_true_eq, FirstNamed, and_assoc]
  refine and_congr_right fun _ => and_congr_right fun _ => forall_congr' fun other => ?_
  constructor
  · intro none defined named
    exact Nat.le_of_not_lt fun before => none before ⟨defined, named⟩
  · rintro least before ⟨defined, named⟩
    exact Nat.not_le_of_lt before (least defined named)

/-- A definition denotes itself. -/
theorem resolveType?_of_isSome {id : TypeId} (defined : (p.typeDefinition? id).isSome) :
    p.resolveType? id = some id := by
  obtain ⟨d, defined⟩ := Option.isSome_iff_exists.1 defined
  rw [resolveType?, resolutionDepth, resolveTypeWithin, type?_of_typeDefinition? defined]

/-! ## Methods -/

/-- The full names of the parameter types of a method. -/
def parameterTypeNames? (p : Program) (id : MethodId) : Option (List String) :=
  (p.methodSignature? id).map fun signature => signature.parameterTypes.map p.fullName

/-- The method is the definition of one with the name of `id`, and with parameter types of the same
names. -/
structure Realizes (p : Program) (id target : MethodId) : Prop where
  defined : (p.methodDefinition? target).isSome
  name : p.methodName? target = p.methodName? id
  parameters : p.parameterTypeNames? target = p.parameterTypeNames? id

/-- A node that is no instance stands for itself. -/
theorem uninstantiatedWithin_succ {id : MethodId} {node : MethodNode}
    (found : p.method? id = some node)
    (plain : ∀ element arguments, node ≠ .instance element arguments) (fuel : Nat) :
    p.uninstantiatedWithin (fuel + 1) id = some node := by
  rw [uninstantiatedWithin, found]
  cases node with
  | «instance» element arguments => exact absurd rfl (plain element arguments)
  | definition | reference => rfl

/-- An instance stands for what its element stands for, if that is no instance again. -/
theorem uninstantiated?_of_instance {id element : MethodId} {arguments : List TypeId}
    {node : MethodNode} (found : p.method? id = some (.instance element arguments))
    (below : p.method? element = some node)
    (plain : ∀ element arguments, node ≠ .instance element arguments) :
    p.uninstantiated? id = p.uninstantiated? element := by
  -- There is a node, so the search looks at the second one as well.
  have inside : id.index < p.methods.size := (Array.getElem?_eq_some_iff.1 found).1
  obtain ⟨size, known⟩ := Nat.exists_eq_succ_of_ne_zero (Nat.ne_zero_of_lt inside)
  rw [uninstantiated?, uninstantiated?, uninstantiatedWithin_succ below plain, known,
    uninstantiatedWithin, found]
  exact uninstantiatedWithin_succ below plain size

/-- Name and signature are read from the node that a method stands for. -/
theorem Realizes.of_uninstantiated? {id id' target : MethodId}
    (same : p.uninstantiated? id = p.uninstantiated? id') (realizes : p.Realizes id' target) :
    p.Realizes id target where
  defined := realizes.defined
  name := by
    rw [realizes.name, methodName?, methodName?, same]
  parameters := by
    rw [realizes.parameters, parameterTypeNames?, parameterTypeNames?, methodSignature?,
      methodSignature?, same]

theorem Realizes.refl {id : MethodId} (defined : (p.methodDefinition? id).isSome) :
    p.Realizes id id :=
  ⟨defined, rfl, rfl⟩

/-- The methods that a reference names are those that realize it. -/
theorem isReferenced_iff {id target : MethodId} {r : MethodReference}
    (found : p.method? id = some (.reference r)) :
    p.isReferenced r target ↔ p.Realizes id target := by
  have reference : p.uninstantiated? id = some (.reference r) :=
    uninstantiatedWithin_succ found nofun _
  unfold isReferenced
  cases defined : p.methodDefinition? target with
  | none =>
    constructor
    · intro no
      cases no
    · intro realizes
      have no := realizes.defined
      rw [defined] at no
      cases no
  | some d =>
    have definition : p.uninstantiated? target = some (.definition d) :=
      uninstantiatedWithin_succ (method?_of_methodDefinition? defined) nofun _
    have name : p.methodName? target = p.methodName? id ↔ d.name = r.name := by
      rw [methodName?, methodName?, definition, reference, Option.some_inj]
    have parameters : p.parameterTypeNames? target = p.parameterTypeNames? id ↔
        p.parameterNames {} d = r.parameterTypes.map p.fullName := by
      rw [parameterTypeNames?, parameterTypeNames?, methodSignature?, methodSignature?,
        definition, reference]
      exact Option.some_inj
    rw [Bool.and_eq_true, decide_eq_true_eq, decide_eq_true_eq, ← name, ← parameters]
    exact ⟨fun both => ⟨by rw [defined]; rfl, both.1, both.2⟩,
      fun realizes => ⟨realizes.name, realizes.parameters⟩⟩

/-- A reference denotes the first method that realizes it in the definition of its declaring
type. -/
theorem resolveMethodReference?_eq_some_iff {id target : MethodId} {r : MethodReference}
    (found : p.method? id = some (.reference r)) :
    p.resolveMethodReference? r = some target ↔
      ∃ owner d, p.resolveType? r.declaringType = some owner ∧ p.typeDefinition? owner = some d ∧
        FirstIn (p.Realizes id) d.methods target := by
  simp only [resolveMethodReference?, Option.bind_eq_bind, Option.bind_eq_some_iff,
    find?_eq_some_iff_firstIn fun _ => isReferenced_iff found, exists_and_left]

theorem realizes_of_resolveMethodReference? {id target : MethodId} {r : MethodReference}
    (found : p.method? id = some (.reference r))
    (resolved : p.resolveMethodReference? r = some target) :
    p.Realizes id target := by
  obtain ⟨-, -, -, -, before, after, -, realizes, -⟩ :=
    (resolveMethodReference?_eq_some_iff found).1 resolved
  exact realizes

theorem isSome_methodDefinition? {id : MethodId} {d : MethodDefinition}
    (found : p.method? id = some (.definition d)) : (p.methodDefinition? id).isSome := by
  rw [methodDefinition?, found]
  rfl

/-- What a method denotes realizes it. -/
theorem realizes_of_resolveMethod? {id target : MethodId}
    (resolved : p.resolveMethod? id = some target) :
    p.Realizes id target := by
  rw [resolveMethod?] at resolved
  split at resolved
  · rename_i d found
    cases resolved
    exact .refl (isSome_methodDefinition? found)
  · rename_i r found
    exact realizes_of_resolveMethodReference? found resolved
  · -- An instance of an instance denotes nothing, so the element is a definition or a reference.
    rename_i element arguments found
    split at resolved
    · rename_i d below
      cases resolved
      exact .of_uninstantiated? (uninstantiated?_of_instance found below nofun)
        (.refl (isSome_methodDefinition? below))
    · rename_i r below
      exact .of_uninstantiated? (uninstantiated?_of_instance found below nofun)
        (realizes_of_resolveMethodReference? below resolved)
    · cases resolved
  · cases resolved

/-- A definition denotes itself. -/
theorem resolveMethod?_of_isSome {id : MethodId} (defined : (p.methodDefinition? id).isSome) :
    p.resolveMethod? id = some id := by
  obtain ⟨d, defined⟩ := Option.isSome_iff_exists.1 defined
  rw [resolveMethod?, method?_of_methodDefinition? defined]

/-! ## Fields -/

/-- The name of a field, as its node gives it. -/
def fieldName? (p : Program) (id : FieldId) : Option String :=
  (p.field? id).map fun
    | .definition d => d.name
    | .reference r => r.name

/-- The field is a definition with the name of `id`. -/
structure RealizesField (p : Program) (id target : FieldId) : Prop where
  defined : (p.fieldDefinition? target).isSome
  name : p.fieldName? target = p.fieldName? id

theorem isReferencedField_iff {id target : FieldId} {r : FieldReference}
    (found : p.field? id = some (.reference r)) :
    p.isReferencedField r target ↔ p.RealizesField id target := by
  unfold isReferencedField
  cases defined : p.fieldDefinition? target with
  | none =>
    constructor
    · intro no
      cases no
    · intro realizes
      have no := realizes.defined
      rw [defined] at no
      cases no
  | some d =>
    have name : p.fieldName? target = p.fieldName? id ↔ d.name = r.name := by
      rw [fieldName?, fieldName?, field?_of_fieldDefinition? defined, found]
      exact Option.some_inj
    rw [decide_eq_true_eq, ← name]
    exact ⟨fun same => ⟨by rw [defined]; rfl, same⟩, fun realizes => realizes.name⟩

/-- A field reference denotes the first field of its name in the definition of its declaring
type. -/
theorem resolveField?_reference_iff {id target : FieldId} {r : FieldReference}
    (found : p.field? id = some (.reference r)) :
    p.resolveField? id = some target ↔
      ∃ owner d, p.resolveType? r.declaringType = some owner ∧ p.typeDefinition? owner = some d ∧
        FirstIn (p.RealizesField id) d.fields target := by
  simp only [resolveField?, found, Option.bind_eq_bind, Option.bind_eq_some_iff,
    find?_eq_some_iff_firstIn fun _ => isReferencedField_iff found, exists_and_left]

/-- A definition denotes itself. -/
theorem resolveField?_of_isSome {id : FieldId} (defined : (p.fieldDefinition? id).isSome) :
    p.resolveField? id = some id := by
  obtain ⟨d, defined⟩ := Option.isSome_iff_exists.1 defined
  rw [resolveField?, field?_of_fieldDefinition? defined]

theorem realizesField_of_resolveField? {id target : FieldId}
    (resolved : p.resolveField? id = some target) :
    p.RealizesField id target := by
  cases found : p.field? id with
  | none => simp [resolveField?, found] at resolved
  | some node =>
    cases node with
    | definition d =>
      have defined : (p.fieldDefinition? id).isSome := by
        rw [fieldDefinition?, found]
        rfl
      cases (resolveField?_of_isSome defined).symm.trans resolved
      exact ⟨defined, rfl⟩
    | reference r =>
      obtain ⟨-, -, -, -, before, after, -, realizes, -⟩ :=
        (resolveField?_reference_iff found).1 resolved
      exact realizes

/-! ## All of it -/

/-- Resolution answers with definitions, which denote themselves. A name is the name of the first
definition that bears it; a method denotes a method like it, and a reference to a method or field
the first one like it that the definition of its declaring type lists. -/
structure ResolvesSoundly (p : Program) : Prop where
  name : ∀ name id, p.findType? name = some id ↔ p.FirstNamed name id
  type : ∀ id target, p.resolveType? id = some target →
    (p.typeDefinition? target).isSome ∧ p.resolveType? target = some target
  method : ∀ id target, p.resolveMethod? id = some target →
    p.Realizes id target ∧ p.resolveMethod? target = some target
  methodReference : ∀ id r target, p.method? id = some (.reference r) →
    (p.resolveMethod? id = some target ↔
      ∃ owner d, p.resolveType? r.declaringType = some owner ∧ p.typeDefinition? owner = some d ∧
        FirstIn (p.Realizes id) d.methods target)
  field : ∀ id target, p.resolveField? id = some target →
    p.RealizesField id target ∧ p.resolveField? target = some target
  fieldReference : ∀ id r target, p.field? id = some (.reference r) →
    (p.resolveField? id = some target ↔
      ∃ owner d, p.resolveType? r.declaringType = some owner ∧ p.typeDefinition? owner = some d ∧
        FirstIn (p.RealizesField id) d.fields target)

/-- In a program that was read from a document resolution is sound. -/
theorem resolvesSoundly_of_parse? {text : String} (parsed : parse? text = some p) :
    p.ResolvesSoundly := by
  have indexed := indexed_of_parse? parsed
  have defines := namesDefinitions_of_parse? parsed
  constructor
  case name => exact findType?_eq_some_iff_firstNamed indexed
  case type =>
    intro id target resolved
    have defined := defines.isSome_typeDefinition? resolved
    exact ⟨defined, resolveType?_of_isSome defined⟩
  case method =>
    intro id target resolved
    have realizes := realizes_of_resolveMethod? resolved
    exact ⟨realizes, resolveMethod?_of_isSome realizes.defined⟩
  case methodReference =>
    intro id r target found
    rw [← resolveMethodReference?_eq_some_iff found, resolveMethod?, found]
  case field =>
    intro id target resolved
    have realizes := realizesField_of_resolveField? resolved
    exact ⟨realizes, resolveField?_of_isSome realizes.defined⟩
  case fieldReference => exact fun id r target found => resolveField?_reference_iff found

/-- Two definitions share a name, which a reference bears as well. The first of them has two methods
`Write`, told apart by the names of their parameter types, and a reference to the second method is
instantiated. A type is an array of itself. -/
def namesakes : Program where
  types := #[
    .definition { namespaceName := "App", name := "Log", methods := [⟨0⟩, ⟨1⟩], fields := [⟨0⟩] },
    .definition { namespaceName := "App", name := "Log" },
    .reference "App.Log",
    .specification (.byReference ⟨2⟩),
    .specification (.array ⟨4⟩ 1)]
  methods := #[
    .definition { declaringType := ⟨0⟩, name := "Write", returnType := ⟨0⟩, parameters := [⟨0⟩] },
    .definition { declaringType := ⟨0⟩, name := "Write", returnType := ⟨0⟩, parameters := [⟨1⟩] },
    .reference {
      declaringType := ⟨3⟩, name := "Write", returnType := ⟨0⟩, parameterTypes := [⟨1⟩] },
    .instance ⟨2⟩ [⟨4⟩]]
  fields := #[
    .definition { declaringType := ⟨0⟩, name := "last", fieldType := ⟨4⟩ },
    .reference { declaringType := ⟨2⟩, name := "last", fieldType := ⟨4⟩ }]
  parameters := #[
    { owner := .method ⟨0⟩, parameterType := ⟨3⟩ }, { owner := .method ⟨1⟩, parameterType := ⟨2⟩ }]

/-- The parameter types of the reference and of the second method are different nodes of one
name. -/
theorem resolvesSoundly_namesakes :
    let p := namesakes.rebuild
    parse? p.document = some p ∧ p.ResolvesSoundly ∧ p.findType? "App.Log" = some ⟨0⟩ ∧
      p.resolveType? ⟨3⟩ = some ⟨0⟩ ∧ p.resolveType? ⟨4⟩ = none ∧ p.resolveMethod? ⟨3⟩ = some ⟨1⟩ ∧
      p.resolveField? ⟨1⟩ = some ⟨0⟩ := by
  intro p
  have read : ofForm? namesakes.form = some namesakes := rfl
  have loaded : parse? p.document = some p := parse?_document_rebuild read (by decide +kernel)
  refine ⟨loaded, resolvesSoundly_of_parse? loaded, ?_, ?_, ?_, ?_, ?_⟩
  all_goals decide +kernel

end Program

end Liveset
