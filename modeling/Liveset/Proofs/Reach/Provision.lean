import Liveset.Program.Index
import Liveset.Proofs.Reach.Evaluation
import Liveset.Proofs.Reach.Heeding

/-!
# The support that reached entities rely on

Checked arithmetic, boxing and arrays of generic parameters are carried out by methods of support
types. Generic declarations, attribute types and enumerations rely on support as well. Who relies on
what is said here apart from the rules: `Program.ReliesOnMethods` for methods of a support type,
told by a property of their definitions, and `Program.ReliesOnType` for support types.

The rules look support up by name and fail where it is missing. So a rule that gives needs has found
all that its entity relies on, and names all of it (`ReliesOnType.named` and
`ReliesOnMethods.named`). A pass that succeeds has therefore reached it (`provided_of_succeeds`).
-/

set_option autoImplicit false

namespace Liveset

/-! ## Support that is kept -/

namespace Support

/-- The support type is in the program and kept. -/
def KeepsType (support : Support) (p : Program) (kept : TypeId → Prop) (name : String) : Prop :=
  ∃ id, p.findType? (support.qualify name) = some id ∧ kept id

/-- The support type is in the program, some of its method definitions have the property, and all
those that have it are kept. -/
def KeepsMethods (support : Support) (p : Program) (kept : MethodId → Prop) (typeName : String)
    (property : MethodDefinition → Prop) : Prop :=
  ∃ id d, p.findType? (support.qualify typeName) = some id ∧ p.typeDefinition? id = some d ∧
    (∃ m ∈ d.methods, ∃ method, p.methodDefinition? m = some method ∧ property method) ∧
    ∀ m ∈ d.methods, ∀ method, p.methodDefinition? m = some method → property method → kept m

/-- The method takes values out of their boxes, by its name. -/
def Unboxes (d : MethodDefinition) : Prop := ∃ rest, d.name = "Unbox" ++ rest

variable {support : Support} {p : Program} {typeName member : String} {needs : List Need}
  {test : String → Nat → Bool} {property : MethodDefinition → Prop}

theorem KeepsType.mono {kept kept' : TypeId → Prop} {name : String}
    (h : support.KeepsType p kept name) (more : ∀ id, kept id → kept' id) :
    support.KeepsType p kept' name := by
  obtain ⟨id, found, known⟩ := h
  exact ⟨id, found, more id known⟩

theorem KeepsMethods.mono {kept kept' : MethodId → Prop}
    (h : support.KeepsMethods p kept typeName property) (more : ∀ id, kept id → kept' id) :
    support.KeepsMethods p kept' typeName property := by
  obtain ⟨id, d, found, defined, some, all⟩ := h
  exact ⟨id, d, found, defined, some, fun m listed method known has =>
    more m (all m listed method known has)⟩

/-! ## Looking support up -/

theorem type_eq_ok {name : String} {id : TypeId} (h : support.type p name = .ok id) :
    p.findType? (support.qualify name) = some id := by
  unfold type at h
  split at h
  · rename_i found
    cases h
    exact found
  · cases h

theorem mem_matching {id : TypeId} {d : TypeDefinition} (defined : p.typeDefinition? id = some d)
    (m : MethodId) :
    m ∈ matching p test id ↔ m ∈ d.methods ∧ ∃ method, p.methodDefinition? m = some method ∧
      test method.name method.parameters.length := by
  simp only [matching, defined, List.mem_filter]
  cases p.methodDefinition? m <;> simp

/-- A look-up that succeeds finds all the methods that pass the test, and at least one. -/
theorem keepsMethods_of_methodsWhere {found : List MethodId}
    (tested : ∀ d : MethodDefinition, test d.name d.parameters.length ↔ property d)
    (h : support.methodsWhere p typeName member test = .ok found) :
    support.KeepsMethods p (· ∈ found) typeName property := by
  unfold methodsWhere at h
  split at h
  · cases h
  · rename_i id looked
    have registered := type_eq_ok looked
    split at h
    · cases h
    · rename_i matched nonempty
      cases h
      -- Something matched, so the type is a definition.
      cases defined : p.typeDefinition? id with
      | none => exact absurd (by simp [matching, defined]) nonempty
      | some d =>
        refine ⟨id, d, registered, defined, ?_, fun m listed method known has => ?_⟩
        · obtain ⟨m, passed⟩ := List.exists_mem_of_ne_nil _ nonempty
          obtain ⟨listed, method, known, passed⟩ := (mem_matching defined m).1 passed
          exact ⟨m, listed, method, known, (tested method).1 passed⟩
        · exact (mem_matching defined m).2 ⟨listed, method, known, (tested method).2 has⟩

theorem mem_needs {methods : List MethodId} {m : MethodId} :
    .entity (.method m) ∈ Support.needs methods ↔ m ∈ methods := by
  simp [Support.needs]

/-- The needs of a look-up name all that it finds. -/
theorem keepsMethods_of_map
    (tested : ∀ d : MethodDefinition, test d.name d.parameters.length ↔ property d)
    (h : (support.methodsWhere p typeName member test).map Support.needs = .ok needs) :
    support.KeepsMethods p (fun m => .entity (.method m) ∈ needs) typeName property := by
  obtain ⟨found, looked, rfl⟩ := exists_of_map_eq_ok h
  exact (keepsMethods_of_methodsWhere tested looked).mono fun m => mem_needs.2

theorem isUnboxName_iff (d : MethodDefinition) : isUnboxName d.name ↔ Unboxes d := by
  simp only [isUnboxName, List.isPrefixOf_iff_prefix, Unboxes]
  constructor
  · rintro ⟨rest, split⟩
    refine ⟨String.ofList rest, String.toList_inj.1 ?_⟩
    rw [String.toList_append, String.toList_ofList (l := rest)]
    exact split.symm
  · rintro ⟨rest, spelled⟩
    rw [spelled, String.toList_append]
    exact ⟨rest.toList, rfl⟩

end Support

/-! ## What code relies on -/

/-- An operation relies on the methods of a support type that have a property. -/
inductive OpCode.ReliesOn : OpCode → String → (MethodDefinition → Prop) → Prop where
  | add : ReliesOn .addOvf "Checked" (·.name = "Add")
  | addUnsigned : ReliesOn .addOvfUn "Checked" (·.name = "Add")
  | sub : ReliesOn .subOvf "Checked" (·.name = "Sub")
  | subUnsigned : ReliesOn .subOvfUn "Checked" (·.name = "Sub")
  | mul : ReliesOn .mulOvf "Checked" (·.name = "Mul")
  | mulUnsigned : ReliesOn .mulOvfUn "Checked" (·.name = "Mul")
  | box : ReliesOn .box "Boxing" (·.name = "Box")
  | unbox : ReliesOn .unbox "Boxing" Support.Unboxes
  | unboxAny : ReliesOn .unboxAny "Boxing" Support.Unboxes

/-- A call with this signature relies on the boxing methods that have a property. -/
inductive Program.CallReliesOn (p : Program) (signature : Signature) :
    (MethodDefinition → Prop) → Prop where
  /-- An array of a generic parameter is boxed to be passed. -/
  | boxed {t : TypeId} (passed : t ∈ signature.parameterTypes)
      (array : p.isGenericParameterArray t) : CallReliesOn p signature (·.name = "Box")
  /-- What comes back in the array that was passed is copied out. -/
  | copied {t : TypeId} (passed : t ∈ signature.parameterTypes)
      (array : p.isGenericParameterArray t) : CallReliesOn p signature (·.name = "UnboxTo")
  /-- An array of a generic parameter is unboxed when it is given back. -/
  | unboxed (array : p.isGenericParameterArray signature.returnType) :
      CallReliesOn p signature fun d => Support.Unboxes d ∧ d.parameters.length = 1

/-- An instruction relies on the methods of a support type that have a property: for its operation,
and for the signature of the method it names, whether or not that method is followed. -/
inductive Instruction.ReliesOn (p : Program) (i : Instruction) :
    String → (MethodDefinition → Prop) → Prop where
  | operation {typeName : String} {property : MethodDefinition → Prop}
      (h : i.opcode.ReliesOn typeName property) : ReliesOn p i typeName property
  | operand {id : MethodId} {signature : Program.Signature} {property : MethodDefinition → Prop}
      (named : i.operand = .method id) (signed : p.methodSignature? id = some signature)
      (h : p.CallReliesOn signature property) : ReliesOn p i "Boxing" property

section Code

variable {support : Support} {p : Program} {needs : List Need} {typeName : String}
  {property : MethodDefinition → Prop}

theorem OpCode.ReliesOn.named {opcode : OpCode} (h : opcode.ReliesOn typeName property)
    (given : support.opcodeNeeds p opcode = .ok needs) :
    support.KeepsMethods p (fun m => .entity (.method m) ∈ needs) typeName property := by
  cases h with
  | unbox | unboxAny => exact Support.keepsMethods_of_map Support.isUnboxName_iff given
  | box => exact Support.keepsMethods_of_map (fun _ => decide_eq_true_iff) given
  | add | addUnsigned => exact Support.keepsMethods_of_map (fun _ => decide_eq_true_iff) given
  | sub | subUnsigned => exact Support.keepsMethods_of_map (fun _ => decide_eq_true_iff) given
  | mul | mulUnsigned => exact Support.keepsMethods_of_map (fun _ => decide_eq_true_iff) given

/-- A call that passes an array of a generic parameter names both conversions of it. -/
theorem arrayArgumentNeeds_named {signature : Program.Signature} {t : TypeId}
    (passed : t ∈ signature.parameterTypes) (array : p.isGenericParameterArray t)
    (given : support.arrayArgumentNeeds p signature = .ok needs) :
    support.KeepsMethods p (fun m => .entity (.method m) ∈ needs) "Boxing" (·.name = "Box") ∧
      support.KeepsMethods p (fun m => .entity (.method m) ∈ needs) "Boxing"
        (·.name = "UnboxTo") := by
  have any : signature.parameterTypes.any p.isGenericParameterArray :=
    List.any_eq_true.2 ⟨t, passed, array⟩
  rw [Support.arrayArgumentNeeds, if_pos any] at given
  obtain ⟨boxing, first, given⟩ := exists_of_bind_eq_ok given
  obtain ⟨unboxing, second, given⟩ := exists_of_bind_eq_ok given
  cases given
  constructor
  · refine (Support.keepsMethods_of_methodsWhere (fun _ => decide_eq_true_iff) first).mono ?_
    exact fun m found => List.mem_append_left _ (Support.mem_needs.2 found)
  · refine (Support.keepsMethods_of_methodsWhere (fun _ => decide_eq_true_iff) second).mono ?_
    exact fun m found => List.mem_append_right _ (Support.mem_needs.2 found)

theorem Program.CallReliesOn.named {id : MethodId} {signature : Program.Signature}
    (signed : p.methodSignature? id = some signature) (h : p.CallReliesOn signature property)
    (given : support.genericArrayNeeds p id = .ok needs) :
    support.KeepsMethods p (fun m => .entity (.method m) ∈ needs) "Boxing" property := by
  simp only [Support.genericArrayNeeds, signed] at given
  obtain ⟨arguments, first, given⟩ := exists_of_bind_eq_ok given
  obtain ⟨result, second, given⟩ := exists_of_bind_eq_ok given
  cases given
  cases h with
  | boxed passed array =>
    exact (arrayArgumentNeeds_named passed array first).1.mono fun m => List.mem_append_left _
  | copied passed array =>
    exact (arrayArgumentNeeds_named passed array first).2.mono fun m => List.mem_append_left _
  | unboxed array =>
    rw [Support.arrayResultNeeds, if_pos array] at second
    refine (Support.keepsMethods_of_map (fun d => ?_) second).mono fun m => List.mem_append_right _
    rw [Bool.and_eq_true, decide_eq_true_eq, Support.isUnboxName_iff]

theorem Instruction.ReliesOn.named {i : Instruction} (h : i.ReliesOn p typeName property)
    {locals : List TypeId} {next? : Option Instruction}
    (given : instructionNeeds support p locals i next? = .ok needs) :
    support.KeepsMethods p (fun m => .entity (.method m) ∈ needs) typeName property := by
  obtain ⟨reference, operation, first, second, rfl⟩ := instructionNeeds_eq_ok given
  cases h with
  | operation h => exact (h.named second).mono fun m => List.mem_append_right _
  | operand named signed h =>
    -- The arrays of the signature are looked at whether or not the operand itself is left out.
    simp only [referenceNeeds, named] at first
    obtain ⟨arrays, called, rfl⟩ := exists_of_map_eq_ok first
    refine (h.named signed called).mono fun m wanted => ?_
    exact List.mem_append_left _ (List.mem_append_right _ wanted)

/-- The needs of an instruction are among those of the code it stands in. -/
theorem exists_instructionNeeds {locals : List TypeId} {instructions : List Instruction}
    {i : Instruction} (given : instructionsNeeds support p locals instructions = .ok needs)
    (listed : i ∈ instructions) :
    ∃ next? first, instructionNeeds support p locals i next? = .ok first ∧ first ⊆ needs := by
  induction instructions generalizing needs with
  | nil => cases listed
  | cons head rest ih =>
    obtain ⟨first, others, here, later, rfl⟩ := instructionsNeeds_cons_eq_ok given
    rcases List.mem_cons.1 listed with rfl | listed
    · exact ⟨_, first, here, List.subset_append_left _ _⟩
    · obtain ⟨next?, own, found, inside⟩ := ih later listed
      exact ⟨next?, own, found, List.subset_append_of_subset_right _ inside⟩

end Code

/-! ## What entities rely on -/

/-- An entity relies on the methods of a support type that have a property. -/
inductive Program.ReliesOnMethods (p : Program) :
    Entity → String → (MethodDefinition → Prop) → Prop where
  /-- A method relies on what the instructions of its body rely on. -/
  | code {id : MethodId} {d : MethodDefinition} {body : MethodBody} {i : Instruction}
      {typeName : String} {property : MethodDefinition → Prop}
      (defined : p.methodDefinition? id = some d) (coded : d.body = some body)
      (listed : i ∈ body.instructions) (h : i.ReliesOn p typeName property) :
      ReliesOnMethods p (.method id) typeName property
  /-- An enumeration relies on the methods that take its two kinds of numbers out of their boxes. -/
  | enumeration {id : TypeId} {d : TypeDefinition} {name : String}
      (defined : p.typeDefinition? id = some d) (plain : p.isAttribute id = false)
      (derived : p.isEnum id) (listed : name ∈ ["UnboxInteger", "UnboxLong"]) :
      ReliesOnMethods p (.type id) "Boxing" (·.name = name)

/-- An entity relies on a support type. -/
inductive Program.ReliesOnType (p : Program) : Entity → String → Prop where
  /-- Generic types are described. -/
  | type {id : TypeId} {d : TypeDefinition} (defined : p.typeDefinition? id = some d)
      (generic : d.genericParameters ≠ []) : ReliesOnType p (.type id) "TypeHelper"
  /-- The instances of generic types, and the parameters in them, are annotated. -/
  | instances {id : TypeId} {d : TypeDefinition} {name : String}
      (defined : p.typeDefinition? id = some d) (generic : d.genericParameters ≠ [])
      (inhabited : d.isStatic = false)
      (listed : name ∈ ["GenericInstanceAnnotation", "GenericTypeParameterAnnotation"]) :
      ReliesOnType p (.type id) name
  /-- Generic methods are described, and their parameters annotated. -/
  | method {id : MethodId} {d : MethodDefinition} {name : String}
      (defined : p.methodDefinition? id = some d) (generic : d.genericParameters ≠ [])
      (listed : name ∈ ["TypeHelper", "GenericMethodParameterAnnotation"]) :
      ReliesOnType p (.method id) name
  /-- Attribute types carry out the interfaces of attributes. -/
  | attribute {id : TypeId} {d : TypeDefinition} {name : String}
      (defined : p.typeDefinition? id = some d) (derived : p.isAttribute id)
      (listed : name ∈ ["IAttribute", "IAttributes", "IAnnotationType"]) :
      ReliesOnType p (.type id) name

section Entities

variable {scene : Scene} {r : Repository} {e : Entity} {needs : List Need} {name typeName : String}
  {property : MethodDefinition → Prop}

theorem mem_of_mapM_eq_ok {ε α β : Type} {f : α → Except ε β} {items : List α} {results : List β}
    (h : items.mapM f = .ok results) {a : α} (listed : a ∈ items) :
    ∃ b ∈ results, f a = .ok b := by
  induction items generalizing results with
  | nil => cases listed
  | cons head rest ih =>
    rw [List.mapM_cons] at h
    obtain ⟨first, here, h⟩ := exists_of_bind_eq_ok h
    obtain ⟨others, later, h⟩ := exists_of_bind_eq_ok h
    cases h
    rcases List.mem_cons.1 listed with rfl | listed
    · exact ⟨first, List.mem_cons_self, here⟩
    · obtain ⟨b, member, found⟩ := ih later listed
      exact ⟨b, List.mem_cons_of_mem _ member, found⟩

theorem Scene.supportNeeds_named {names : List String}
    (given : scene.supportNeeds names = .ok needs) (listed : name ∈ names) :
    scene.support.KeepsType scene.program (fun id => .entity (.type id) ∈ needs) name := by
  obtain ⟨types, found, rfl⟩ := supportNeeds_eq_ok given
  obtain ⟨id, member, looked⟩ := mem_of_mapM_eq_ok found listed
  exact ⟨id, Support.type_eq_ok looked, List.mem_map_of_mem member⟩

theorem Scene.genericNeeds_named {owner : GenericOwner} {parameters : List GenericParameterId}
    (given : scene.genericNeeds owner parameters = .ok needs) (generic : parameters ≠ [])
    (listed : name ∈ scene.genericSupport owner) :
    scene.support.KeepsType scene.program (fun id => .entity (.type id) ∈ needs) name := by
  rcases genericNeeds_eq_ok given with ⟨none, -⟩ | ⟨support, found, rfl⟩
  · exact absurd none generic
  · exact (supportNeeds_named found listed).mono fun id => List.mem_append_left _

theorem Scene.genericType_named {id : TypeId} {d : TypeDefinition}
    (defined : scene.program.typeDefinition? id = some d) (generic : d.genericParameters ≠ [])
    (listed : name ∈ scene.genericSupport (.type id))
    (asked : scene.needs r (.type id) = .ok needs) :
    scene.support.KeepsType scene.program (fun id => .entity (.type id) ∈ needs) name := by
  rw [needs_typeDefinition defined] at asked
  obtain ⟨own, special, first, -, rfl⟩ := typeDefinitionRule_eq_ok asked
  refine (genericNeeds_named first generic listed).mono fun id wanted => ?_
  simp only [List.mem_append, wanted, true_or]

/-- The rule of an entity names the support types that the entity relies on. -/
theorem Program.ReliesOnType.named (h : scene.program.ReliesOnType e name)
    (asked : scene.needs r e = .ok needs) :
    scene.support.KeepsType scene.program (fun id => .entity (.type id) ∈ needs) name := by
  cases h with
  | type defined generic =>
    refine Scene.genericType_named defined generic ?_ asked
    simp only [Scene.genericSupport]
    split <;> exact List.mem_cons_self
  | instances defined generic inhabited listed =>
    refine Scene.genericType_named defined generic ?_ asked
    simp only [Scene.genericSupport, defined, Option.any_some, inhabited]
    exact List.mem_cons_of_mem _ listed
  | method defined generic listed =>
    rw [Scene.needs_methodDefinition defined] at asked
    obtain ⟨own, code, first, -, rfl⟩ := Scene.methodDefinitionRule_eq_ok asked
    refine (Scene.genericNeeds_named first generic listed).mono fun id wanted => ?_
    simp only [List.mem_append, wanted, true_or, or_true]
  | «attribute» defined derived listed =>
    rw [Scene.needs_typeDefinition defined] at asked
    obtain ⟨own, special, -, second, rfl⟩ := Scene.typeDefinitionRule_eq_ok asked
    rw [Scene.specialNeeds, if_pos derived] at second
    refine (Scene.supportNeeds_named second listed).mono fun id wanted => ?_
    simp only [List.mem_append, wanted, true_or, or_true]

/-- An enumeration names both methods that it relies on. -/
theorem Scene.specialNeeds_named {id : TypeId} (given : scene.specialNeeds id = .ok needs)
    (plain : scene.program.isAttribute id = false) (derived : scene.program.isEnum id)
    (listed : name ∈ ["UnboxInteger", "UnboxLong"]) :
    scene.support.KeepsMethods scene.program (fun m => .entity (.method m) ∈ needs) "Boxing"
      (·.name = name) := by
  simp only [specialNeeds, plain, derived, Bool.false_eq_true, if_false, if_true] at given
  obtain ⟨integers, first, given⟩ := exists_of_bind_eq_ok given
  obtain ⟨longs, second, given⟩ := exists_of_bind_eq_ok given
  cases given
  rcases List.mem_pair.1 listed with rfl | rfl
  · refine (Support.keepsMethods_of_methodsWhere (fun _ => decide_eq_true_iff) first).mono
      fun m found => ?_
    exact List.mem_append_left _ (Support.mem_needs.2 found)
  · refine (Support.keepsMethods_of_methodsWhere (fun _ => decide_eq_true_iff) second).mono
      fun m found => ?_
    exact List.mem_append_right _ (Support.mem_needs.2 found)

/-- The rule of an entity names the support methods that the entity relies on. -/
theorem Program.ReliesOnMethods.named (h : scene.program.ReliesOnMethods e typeName property)
    (asked : scene.needs r e = .ok needs) :
    scene.support.KeepsMethods scene.program (fun m => .entity (.method m) ∈ needs) typeName
      property := by
  cases h with
  | code defined coded listed h =>
    rw [Scene.needs_methodDefinition defined] at asked
    obtain ⟨generic, code, -, second, rfl⟩ := Scene.methodDefinitionRule_eq_ok asked
    rw [coded] at second
    obtain ⟨run, given, rfl⟩ := bodyNeeds_eq_ok second
    obtain ⟨next?, first, own, inside⟩ := exists_instructionNeeds given listed
    refine (h.named own).mono fun m wanted => ?_
    have wanted := inside wanted
    simp only [List.mem_append, wanted, true_or, or_true]
  | enumeration defined plain derived listed =>
    rw [Scene.needs_typeDefinition defined] at asked
    obtain ⟨generic, special, -, second, rfl⟩ := Scene.typeDefinitionRule_eq_ok asked
    refine (Scene.specialNeeds_named second plain derived listed).mono fun m wanted => ?_
    simp only [List.mem_append, wanted, true_or, or_true]

end Entities

/-! ## Passes that succeed -/

/-- Whatever the reached entities rely on is in the program and reached. -/
structure Provided (scene : Scene) (s : State) : Prop where
  types : ∀ e name, s.isReached e → scene.program.ReliesOnType e name →
    scene.support.KeepsType scene.program (fun id => s.isReached (.type id)) name
  methods : ∀ e typeName property, s.isReached e →
    scene.program.ReliesOnMethods e typeName property →
    scene.support.KeepsMethods scene.program (fun id => s.isReached (.method id)) typeName property

/-- A pass whose calls all succeed lacks no support: every support type and every support method
that a reached entity relies on is in the program and reached. -/
theorem provided_of_succeeds {scene : Scene} {strategy : Strategy} {loader : Loader}
    {recordRetention : Bool} {calls : List Call}
    (succeeds : (Session.fresh scene strategy loader recordRetention).Succeeds calls) :
    Provided scene ((Session.fresh scene strategy loader recordRetention).after calls).state := by
  have heeds := succeeds.heeds (Session.heeds_fresh scene strategy loader recordRetention)
  constructor
  · intro e name reached relies
    have native : e.isForeign = false := by cases relies <;> rfl
    obtain ⟨needs, asked, heeded⟩ := heeds e native reached
    exact (relies.named asked).mono fun id wanted => heeded _ wanted
  · intro e typeName property reached relies
    have native : e.isForeign = false := by cases relies <;> rfl
    obtain ⟨needs, asked, heeded⟩ := heeds e native reached
    exact (relies.named asked).mono fun m wanted => heeded _ wanted

/-! ## Support behind an operand that is left out -/

/-- The method `Total` adds with a check and calls `Entries`, which the platform carries out. As
`Entries` passes an array of the generic parameter on, its caller relies on boxing. -/
def ledger : Program :=
  Program.rebuild {
    types := #[
      .definition
        { namespaceName := "App", name := "Ledger`1", methods := [⟨0⟩, ⟨1⟩]
          genericParameters := [⟨0⟩] },
      .genericParameter ⟨0⟩,
      .specification (.array ⟨1⟩ 1),
      .definition { namespaceName := "Compiler.Internal", name := "TypeHelper" },
      .definition { namespaceName := "Compiler.Internal", name := "GenericInstanceAnnotation" },
      .definition
        { namespaceName := "Compiler.Internal", name := "GenericTypeParameterAnnotation" },
      .definition { namespaceName := "Compiler.Internal", name := "Checked", methods := [⟨2⟩] },
      .definition
        { namespaceName := "Compiler.Internal", name := "Boxing", methods := [⟨3⟩, ⟨4⟩, ⟨5⟩] }]
    methods := #[
      .definition
        { declaringType := ⟨0⟩, name := "Total", returnType := ⟨1⟩
          body := some { instructions :=
            [{ opcode := .call, operand := .method ⟨1⟩ }, { opcode := .addOvfUn }] } },
      .definition
        { declaringType := ⟨0⟩, name := "Entries", returnType := ⟨2⟩, parameters := [⟨0⟩]
          flags := { native := true } },
      .definition { declaringType := ⟨6⟩, name := "Add", returnType := ⟨1⟩ },
      .definition { declaringType := ⟨7⟩, name := "Box", returnType := ⟨2⟩ },
      .definition { declaringType := ⟨7⟩, name := "UnboxTo", returnType := ⟨2⟩ },
      .definition
        { declaringType := ⟨7⟩, name := "UnboxArray", returnType := ⟨2⟩, parameters := [⟨1⟩] }]
    parameters := #[
      { owner := .method ⟨1⟩, parameterType := ⟨2⟩ },
      { owner := .method ⟨5⟩, parameterType := ⟨2⟩ }]
    genericParameters := #[{ owner := .type ⟨0⟩, name := "T" }] }

set_option maxRecDepth 4000 in
/-- Marking `Total` leaves `Entries` out and reaches what its caller relies on. -/
theorem provided_ledger :
    let scene : Scene := { program := ledger, includes := fun _ => false }
    let session := Session.fresh scene .recursive .empty false
    let calls : List Call := [.mark (some (.method ⟨0⟩))]
    session.Succeeds calls ∧ (session.after calls).isReached (.method ⟨0⟩) ∧
      ¬ (session.after calls).isReached (.method ⟨1⟩) ∧
      ledger.ReliesOnMethods (.method ⟨0⟩) "Boxing" (·.name = "UnboxTo") ∧
      ledger.ReliesOnType (.type ⟨0⟩) "GenericInstanceAnnotation" ∧
      Provided scene (session.after calls).state := by
  intro scene session calls
  have tested := session.attempt_any calls 100
    (fun entries final => entries.all (·.1.isOk) && final.isReached (.method ⟨0⟩) &&
      !final.isReached (.method ⟨1⟩)) (by decide +kernel)
  simp only [Bool.and_eq_true, Bool.not_eq_true'] at tested
  obtain ⟨⟨ok, caller⟩, leftOut⟩ := tested
  have succeeds := Session.succeeds_of_isOk ok
  refine ⟨succeeds, caller, Bool.eq_false_iff.1 leftOut, ?_, ?_, provided_of_succeeds succeeds⟩
  · refine .code rfl rfl List.mem_cons_self (.operand rfl rfl ?_)
    exact .copied List.mem_cons_self rfl
  · exact .instances rfl (List.cons_ne_nil _ _) rfl List.mem_cons_self

end Liveset
