import Liveset.Proofs.Reach.Provision
import Liveset.Proofs.Reach.RootOrder

/-!
# Why and where calls fail

Whether the rule of an entity fails does not depend on the classes that are loaded: it gives steps
whatever they are (`Scene.Applies`), or fails with one error whatever they are (`Scene.Fails`). It
fails only for want of support. What the entity relies on is then not in the program, and the error
names it (`Scene.Lacks`); conversely, the rule of an entity that lacks support fails
(`Scene.exists_fails_iff_exists_lacks`).

As long as the loop moves, the rules of all reached entities apply. So a marking ends with all of
them applied, or breaks off at the entity that it has reached last (`Strategy.ended_mark`), and the
same is true of a call. From this follows how a call ends after calls that succeeded
(`stopsForSupport_of_succeeds`). References that do not resolve, handles without a node and classes
that cannot be read play no part in it: where all support is in the program, every call succeeds.
-/

set_option autoImplicit false

namespace Liveset

open Worklist

/-! ## Computations that fail -/

section Failure

variable {ε α β : Type} {error : ε}

theorem error_or_exists_of_bind_eq_error {x : Except ε α} {f : α → Except ε β}
    (h : (x >>= f) = .error error) : x = .error error ∨ ∃ a, x = .ok a ∧ f a = .error error := by
  cases x with
  | error other =>
    cases h
    exact .inl rfl
  | ok a => exact .inr ⟨a, rfl, h⟩

theorem eq_error_of_map_eq_error {x : Except ε α} {f : α → β} (h : x.map f = .error error) :
    x = .error error := by
  cases x with
  | error other =>
    cases h
    rfl
  | ok a => cases h

theorem exists_of_mapM_eq_error {f : α → Except ε β} {items : List α}
    (h : items.mapM f = .error error) : ∃ a ∈ items, f a = .error error := by
  induction items with
  | nil => cases h
  | cons head rest ih =>
    rw [List.mapM_cons] at h
    rcases error_or_exists_of_bind_eq_error h with here | ⟨first, -, h⟩
    · exact ⟨head, List.mem_cons_self, here⟩
    · rcases error_or_exists_of_bind_eq_error h with later | ⟨others, -, h⟩
      · obtain ⟨a, listed, found⟩ := ih later
        exact ⟨a, List.mem_cons_of_mem _ listed, found⟩
      · cases h

end Failure

/-! ## Support that is missing -/

namespace Support

/-- How a failed look-up calls the methods that it asked for: by their name, or by what their names
start with. -/
inductive Labels : String → (MethodDefinition → Prop) → Prop where
  | name (member : String) : Labels member (·.name = member)
  | unboxing : Labels "Unbox*" Unboxes
  | unboxingOne : Labels "Unbox*" fun d => Unboxes d ∧ d.parameters.length = 1

/-- The support type is not in the program, as the error says. -/
def LacksType (support : Support) (p : Program) (name : String) (error : SupportError) : Prop :=
  p.findType? (support.qualify name) = none ∧ error = .missingType (support.qualify name)

/-- The support type is not in the program, or it is and none of its method definitions has the
property. The error says which. -/
inductive LacksMethods (support : Support) (p : Program) (typeName : String)
    (property : MethodDefinition → Prop) : SupportError → Prop where
  | type (missing : p.findType? (support.qualify typeName) = none) :
      LacksMethods support p typeName property (.missingType (support.qualify typeName))
  | methods {id : TypeId} {member : String}
      (found : p.findType? (support.qualify typeName) = some id) (label : Labels member property)
      (none : ∀ d, p.typeDefinition? id = some d → ∀ m ∈ d.methods, ∀ method,
        p.methodDefinition? m = some method → ¬ property method) :
      LacksMethods support p typeName property (.missingMember (support.qualify typeName) member)

variable {support : Support} {p : Program} {typeName member : String} {error : SupportError}
  {test : String → Nat → Bool} {property : MethodDefinition → Prop}

theorem lacksType_of_type {name : String} (h : support.type p name = .error error) :
    support.LacksType p name error := by
  unfold type at h
  split at h
  · cases h
  · rename_i missing
    cases h
    exact ⟨missing, rfl⟩

/-- A look-up that fails lacks the methods that it asks for. -/
theorem lacksMethods_of_methodsWhere (label : Labels member property)
    (tested : ∀ d : MethodDefinition, test d.name d.parameters.length ↔ property d)
    (h : support.methodsWhere p typeName member test = .error error) :
    support.LacksMethods p typeName property error := by
  unfold methodsWhere at h
  split at h
  · rename_i looked
    cases h
    obtain ⟨missing, rfl⟩ := lacksType_of_type looked
    exact .type missing
  · rename_i id looked
    split at h
    · rename_i empty
      cases h
      refine .methods (type_eq_ok looked) label fun d defined m listed method known has => ?_
      have passed : m ∈ matching p test id :=
        (mem_matching defined m).2 ⟨listed, method, known, (tested method).2 has⟩
      rw [empty] at passed
      cases passed
    · cases h

theorem lacksMethods_of_methodsNamed (h : support.methodsNamed p typeName member = .error error) :
    support.LacksMethods p typeName (·.name = member) error :=
  lacksMethods_of_methodsWhere (.name member) (fun _ => decide_eq_true_iff) h

/-- What is kept is not lacking. -/
theorem KeepsType.not_lacksType {kept : TypeId → Prop} {name : String}
    (h : support.KeepsType p kept name) : ¬ support.LacksType p name error := by
  rintro ⟨missing, -⟩
  obtain ⟨id, found, -⟩ := h
  rw [found] at missing
  cases missing

theorem KeepsMethods.not_lacksMethods {kept : MethodId → Prop}
    (h : support.KeepsMethods p kept typeName property) :
    ¬ support.LacksMethods p typeName property error := by
  intro lacks
  obtain ⟨id, d, registered, defined, ⟨m, listed, method, known, has⟩, -⟩ := h
  cases lacks with
  | type missing =>
    rw [registered] at missing
    cases missing
  | methods found label none =>
    cases Option.some.inj (found.symm.trans registered)
    exact none d defined m listed method known has

end Support

/-! ## Rules that fail -/

section Code

variable {support : Support} {p : Program} {error : SupportError}

theorem OpCode.exists_lack {opcode : OpCode} (h : support.opcodeNeeds p opcode = .error error) :
    ∃ typeName property, opcode.ReliesOn typeName property ∧
      support.LacksMethods p typeName property error := by
  have named {typeName member : String}
      (h : (support.methodsNamed p typeName member).map Support.needs = .error error) :
      support.LacksMethods p typeName (·.name = member) error :=
    Support.lacksMethods_of_methodsNamed (eq_error_of_map_eq_error h)
  have unboxing
      (h : (support.methodsWhere p "Boxing" "Unbox*" fun name _ =>
        Support.isUnboxName name).map Support.needs = .error error) :
      support.LacksMethods p "Boxing" Support.Unboxes error :=
    Support.lacksMethods_of_methodsWhere .unboxing Support.isUnboxName_iff
      (eq_error_of_map_eq_error h)
  cases opcode with
  | addOvf => exact ⟨_, _, .add, named h⟩
  | addOvfUn => exact ⟨_, _, .addUnsigned, named h⟩
  | subOvf => exact ⟨_, _, .sub, named h⟩
  | subOvfUn => exact ⟨_, _, .subUnsigned, named h⟩
  | mulOvf => exact ⟨_, _, .mul, named h⟩
  | mulOvfUn => exact ⟨_, _, .mulUnsigned, named h⟩
  | box => exact ⟨_, _, .box, named h⟩
  | unbox => exact ⟨_, _, .unbox, unboxing h⟩
  | unboxAny => exact ⟨_, _, .unboxAny, unboxing h⟩
  | _ => cases h

/-- For an array that is passed both conversions are looked up, one after the other. -/
theorem exists_lack_of_arrayArguments {signature : Program.Signature}
    (h : support.arrayArgumentNeeds p signature = .error error) :
    ∃ property, p.CallReliesOn signature property ∧
      support.LacksMethods p "Boxing" property error := by
  unfold Support.arrayArgumentNeeds at h
  split at h
  · rename_i any
    obtain ⟨t, passed, array⟩ := List.any_eq_true.1 any
    rcases error_or_exists_of_bind_eq_error h with boxing | ⟨boxing, -, h⟩
    · exact ⟨_, .boxed passed array, Support.lacksMethods_of_methodsNamed boxing⟩
    rcases error_or_exists_of_bind_eq_error h with unboxing | ⟨unboxing, -, h⟩
    · exact ⟨_, .copied passed array, Support.lacksMethods_of_methodsNamed unboxing⟩
    · cases h
  · cases h

theorem exists_lack_of_arrayResult {signature : Program.Signature}
    (h : support.arrayResultNeeds p signature = .error error) :
    ∃ property, p.CallReliesOn signature property ∧
      support.LacksMethods p "Boxing" property error := by
  unfold Support.arrayResultNeeds at h
  split at h
  · rename_i array
    refine ⟨_, .unboxed array, ?_⟩
    refine Support.lacksMethods_of_methodsWhere .unboxingOne (fun d => ?_)
      (eq_error_of_map_eq_error h)
    rw [Bool.and_eq_true, decide_eq_true_eq, Support.isUnboxName_iff]
  · cases h

/-- A method that is called relies on support only by its signature. -/
theorem exists_lack_of_genericArrays {id : MethodId}
    (h : support.genericArrayNeeds p id = .error error) :
    ∃ signature property, p.methodSignature? id = some signature ∧
      p.CallReliesOn signature property ∧ support.LacksMethods p "Boxing" property error := by
  unfold Support.genericArrayNeeds at h
  split at h
  · cases h
  · rename_i signature signed
    rcases error_or_exists_of_bind_eq_error h with arguments | ⟨arguments, -, h⟩
    · obtain ⟨property, lacks⟩ := exists_lack_of_arrayArguments arguments
      exact ⟨signature, property, signed, lacks⟩
    rcases error_or_exists_of_bind_eq_error h with result | ⟨result, -, h⟩
    · obtain ⟨property, lacks⟩ := exists_lack_of_arrayResult result
      exact ⟨signature, property, signed, lacks⟩
    · cases h

theorem Instruction.exists_lack {i : Instruction} {locals : List TypeId}
    {next? : Option Instruction} (h : instructionNeeds support p locals i next? = .error error) :
    ∃ typeName property, i.ReliesOn p typeName property ∧
      support.LacksMethods p typeName property error := by
  rcases error_or_exists_of_bind_eq_error h with reference | ⟨reference, -, h⟩
  · -- Of all operands only methods make the rule look at support.
    unfold referenceNeeds at reference
    split at reference
    case h_2 id named =>
      obtain ⟨signature, property, signed, relies, lacks⟩ :=
        exists_lack_of_genericArrays (eq_error_of_map_eq_error reference)
      exact ⟨_, property, .operand named signed relies, lacks⟩
    all_goals cases reference
  · rcases error_or_exists_of_bind_eq_error h with operation | ⟨operation, -, h⟩
    · obtain ⟨typeName, property, relies, lacks⟩ := OpCode.exists_lack operation
      exact ⟨typeName, property, .operation relies, lacks⟩
    · cases h

/-- Code fails at one of its instructions. -/
theorem exists_instruction_lack {locals : List TypeId} {instructions : List Instruction}
    (h : instructionsNeeds support p locals instructions = .error error) :
    ∃ i ∈ instructions, ∃ typeName property, i.ReliesOn p typeName property ∧
      support.LacksMethods p typeName property error := by
  induction instructions with
  | nil => cases h
  | cons first rest ih =>
    rcases error_or_exists_of_bind_eq_error h with here | ⟨own, -, h⟩
    · exact ⟨first, List.mem_cons_self, Instruction.exists_lack here⟩
    · rcases error_or_exists_of_bind_eq_error h with later | ⟨others, -, h⟩
      · obtain ⟨i, listed, lacks⟩ := ih later
        exact ⟨i, List.mem_cons_of_mem _ listed, lacks⟩
      · cases h

end Code

namespace Scene

variable {scene : Scene} {r : Repository} {e : Entity} {error : SupportError}

/-- The rule of the entity gives steps, whatever classes are loaded. -/
def Applies (scene : Scene) (e : Entity) : Prop := ∀ r, ∃ x, scene.expand r e = .ok x

/-- The rule of the entity fails with the error, whatever classes are loaded. -/
def Fails (scene : Scene) (e : Entity) (error : SupportError) : Prop :=
  ∀ r, scene.expand r e = .error error

/-- The entity relies on a support type, or on methods of one, and the program lacks it. The error
names what is missing. -/
inductive Lacks (scene : Scene) (e : Entity) (error : SupportError) : Prop where
  | type {name : String} (relies : scene.program.ReliesOnType e name)
      (lacks : scene.support.LacksType scene.program name error) : Lacks scene e error
  | methods {typeName : String} {property : MethodDefinition → Prop}
      (relies : scene.program.ReliesOnMethods e typeName property)
      (lacks : scene.support.LacksMethods scene.program typeName property error) :
      Lacks scene e error

theorem fails_of_needs (h : scene.needs r e = .error error) : scene.Fails e error := by
  intro r'
  rw [expand, needs_of_error h r']
  rfl

theorem applies_or_fails (scene : Scene) (e : Entity) :
    scene.Applies e ∨ ∃ error, scene.Fails e error := by
  by_cases applies : scene.Applies e
  · exact .inl applies
  · obtain ⟨r, stuck⟩ := Classical.not_forall.1 applies
    cases applied : scene.expand r e with
    | error error => exact .inr ⟨error, fails_of_needs (expand_eq_error applied)⟩
    | ok x => exact absurd ⟨x, applied⟩ stuck

theorem Applies.not_fails (applies : scene.Applies e) : ¬ scene.Fails e error := by
  intro fails
  obtain ⟨x, applied⟩ := applies {}
  rw [fails {}] at applied
  cases applied

theorem applies_of_expand {x : Expansion} (h : scene.expand r e = .ok x) : scene.Applies e := by
  rcases scene.applies_or_fails e with applies | ⟨error, fails⟩
  · exact applies
  · rw [fails r] at h
    cases h

theorem Fails.unique {error' : SupportError} (h : scene.Fails e error) (h' : scene.Fails e error') :
    error = error' :=
  Except.error.inj ((h {}).symm.trans (h' {}))

/-! ## Support is all that rules fail for -/

theorem supportNeeds_lack {names : List String} (h : scene.supportNeeds names = .error error) :
    ∃ name ∈ names, scene.support.LacksType scene.program name error := by
  rcases error_or_exists_of_bind_eq_error h with looked | ⟨types, -, h⟩
  · obtain ⟨name, listed, missing⟩ := exists_of_mapM_eq_error looked
    exact ⟨name, listed, Support.lacksType_of_type missing⟩
  · cases h

theorem genericNeeds_lack {owner : GenericOwner} {parameters : List GenericParameterId}
    (h : scene.genericNeeds owner parameters = .error error) :
    parameters ≠ [] ∧
      ∃ name ∈ scene.genericSupport owner, scene.support.LacksType scene.program name error := by
  cases parameters with
  | nil => cases h
  | cons parameter rest =>
    refine ⟨List.cons_ne_nil _ _, ?_⟩
    rcases error_or_exists_of_bind_eq_error h with looked | ⟨types, -, h⟩
    · exact supportNeeds_lack looked
    · cases h

/-- Only attribute types and enumerations rely on support for what they are. -/
theorem lacks_of_specialNeeds {id : TypeId} {d : TypeDefinition}
    (defined : scene.program.typeDefinition? id = some d)
    (h : scene.specialNeeds id = .error error) : scene.Lacks (.type id) error := by
  simp only [specialNeeds] at h
  split at h
  · rename_i derived
    obtain ⟨name, listed, lacks⟩ := supportNeeds_lack h
    exact .type (.attribute defined derived listed) lacks
  rename_i plain
  split at h
  · rename_i derived
    have relies {name : String} (listed : name ∈ ["UnboxInteger", "UnboxLong"]) :=
      Program.ReliesOnMethods.enumeration defined (Bool.eq_false_iff.2 plain) derived listed
    rcases error_or_exists_of_bind_eq_error h with integers | ⟨integers, -, h⟩
    · exact .methods (relies List.mem_cons_self) (Support.lacksMethods_of_methodsNamed integers)
    rcases error_or_exists_of_bind_eq_error h with longs | ⟨longs, -, h⟩
    · exact .methods (relies (List.mem_cons_of_mem _ List.mem_cons_self))
        (Support.lacksMethods_of_methodsNamed longs)
    · cases h
  · cases h

theorem lacks_of_typeDefinitionRule {id : TypeId} {d : TypeDefinition}
    (defined : scene.program.typeDefinition? id = some d)
    (h : scene.typeDefinitionRule id d = .error error) : scene.Lacks (.type id) error := by
  rcases error_or_exists_of_bind_eq_error h with generic | ⟨generic, -, h⟩
  · obtain ⟨parameters, name, listed, lacks⟩ := genericNeeds_lack generic
    simp only [genericSupport, defined, Option.any_some] at listed
    -- Static types have no instances to annotate.
    split at listed
    · cases List.mem_singleton.1 listed
      exact .type (.type defined parameters) lacks
    · rename_i inhabited
      rcases List.mem_cons.1 listed with rfl | listed
      · exact .type (.type defined parameters) lacks
      · exact .type (.instances defined parameters (Bool.eq_false_iff.2 inhabited) listed) lacks
  rcases error_or_exists_of_bind_eq_error h with special | ⟨special, -, h⟩
  · exact lacks_of_specialNeeds defined special
  · cases h

theorem lacks_of_methodDefinitionRule {id : MethodId} {d : MethodDefinition}
    (defined : scene.program.methodDefinition? id = some d)
    (h : scene.methodDefinitionRule id d = .error error) : scene.Lacks (.method id) error := by
  rcases error_or_exists_of_bind_eq_error h with generic | ⟨generic, -, h⟩
  · obtain ⟨parameters, name, listed, lacks⟩ := genericNeeds_lack generic
    exact .type (.method defined parameters listed) lacks
  rcases error_or_exists_of_bind_eq_error h with code | ⟨code, -, h⟩
  · cases coded : d.body with
    | none =>
      rw [coded] at code
      cases code
    | some body =>
      rw [coded] at code
      rcases error_or_exists_of_bind_eq_error code with run | ⟨run, -, code⟩
      · obtain ⟨i, listed, typeName, property, relies, lacks⟩ := exists_instruction_lack run
        exact .methods (.code defined coded listed relies) lacks
      · cases code
  · cases h

/-- A rule that fails does so for want of support that its entity relies on. -/
theorem Fails.lacks (h : scene.Fails e error) : scene.Lacks e error := by
  have asked := expand_eq_error (h {})
  cases e with
  | type id =>
    simp only [needs, typeRule] at asked
    split at asked
    case h_1 d node =>
      have defined : scene.program.typeDefinition? id = some d := by
        rw [Program.typeDefinition?, node]
        rfl
      exact lacks_of_typeDefinitionRule defined asked
    all_goals cases asked
  | method id =>
    simp only [needs, methodRule] at asked
    split at asked
    case h_1 d node =>
      have defined : scene.program.methodDefinition? id = some d := by
        rw [Program.methodDefinition?, node]
        rfl
      exact lacks_of_methodDefinitionRule defined asked
    all_goals cases asked
  | _ => cases asked

theorem Lacks.not_applies (h : scene.Lacks e error) : ¬ scene.Applies e := by
  intro applies
  obtain ⟨x, applied⟩ := applies {}
  obtain ⟨needs, asked, -⟩ := expand_eq_ok applied
  cases h with
  | type relies lacks => exact (relies.named asked).not_lacksType lacks
  | methods relies lacks => exact (relies.named asked).not_lacksMethods lacks

/-- Rules fail exactly for the entities that lack support. -/
theorem exists_fails_iff_exists_lacks :
    (∃ error, scene.Fails e error) ↔ ∃ error, scene.Lacks e error := by
  constructor
  · rintro ⟨error, fails⟩
    exact ⟨error, fails.lacks⟩
  · rintro ⟨error, lacks⟩
    exact (scene.applies_or_fails e).resolve_left lacks.not_applies

end Scene

/-! ## Support that is complete -/

/-- The support types that rules ask for by themselves and not for their methods. -/
def Support.typeNames : List String :=
  ["TypeHelper", "GenericInstanceAnnotation", "GenericTypeParameterAnnotation",
    "GenericMethodParameterAnnotation", "IAttribute", "IAttributes", "IAnnotationType"]

/-- Whatever a rule can ask for is in the program. -/
structure Support.Complete (support : Support) (p : Program) : Prop where
  types : ∀ name ∈ typeNames, support.KeepsType p (fun _ => True) name
  checked : ∀ name ∈ ["Add", "Sub", "Mul"],
    support.KeepsMethods p (fun _ => True) "Checked" (·.name = name)
  boxing : ∀ name ∈ ["Box", "UnboxTo", "UnboxInteger", "UnboxLong"],
    support.KeepsMethods p (fun _ => True) "Boxing" (·.name = name)
  unboxing : support.KeepsMethods p (fun _ => True) "Boxing" fun d =>
    Unboxes d ∧ d.parameters.length = 1

/-- Support is complete if all look-ups find something. -/
theorem Support.complete_of_isOk {support : Support} {p : Program}
    (types : ∀ name ∈ typeNames, (support.type p name).isOk)
    (checked : ∀ name ∈ ["Add", "Sub", "Mul"], (support.methodsNamed p "Checked" name).isOk)
    (boxing : ∀ name ∈ ["Box", "UnboxTo", "UnboxInteger", "UnboxLong"],
      (support.methodsNamed p "Boxing" name).isOk)
    (unboxing : (support.methodsWhere p "Boxing" "Unbox*" fun name count =>
      isUnboxName name && count = 1).isOk) : support.Complete p := by
  have found {α : Type} {x : Except SupportError α} (ok : x.isOk) : ∃ a, x = .ok a := by
    cases x with
    | error error => cases ok
    | ok a => exact ⟨a, rfl⟩
  constructor
  case types =>
    intro name listed
    obtain ⟨id, looked⟩ := found (types name listed)
    exact ⟨id, type_eq_ok looked, trivial⟩
  case checked =>
    intro name listed
    obtain ⟨methods, looked⟩ := found (checked name listed)
    exact (keepsMethods_of_methodsWhere (fun _ => decide_eq_true_iff) looked).mono
      fun _ _ => trivial
  case boxing =>
    intro name listed
    obtain ⟨methods, looked⟩ := found (boxing name listed)
    exact (keepsMethods_of_methodsWhere (fun _ => decide_eq_true_iff) looked).mono
      fun _ _ => trivial
  case unboxing =>
    obtain ⟨methods, looked⟩ := found unboxing
    refine (keepsMethods_of_methodsWhere (fun d => ?_) looked).mono fun _ _ => trivial
    rw [Bool.and_eq_true, decide_eq_true_eq, isUnboxName_iff]

namespace Support.Complete

variable {support : Support} {p : Program} {e : Entity} {typeName name : String}
  {property : MethodDefinition → Prop}

theorem keepsType (h : support.Complete p) (relies : p.ReliesOnType e name) :
    support.KeepsType p (fun _ => True) name := by
  apply h.types
  cases relies with
  | type => exact List.mem_cons_self
  | instances _ _ _ listed | method _ _ listed | «attribute» _ _ listed =>
    simp only [typeNames, List.mem_cons, List.not_mem_nil, or_false] at listed ⊢
    tauto

theorem keepsUnboxing (h : support.Complete p) :
    support.KeepsMethods p (fun _ => True) "Boxing" Unboxes := by
  obtain ⟨id, d, found, defined, ⟨m, listed, method, known, has⟩, -⟩ := h.unboxing
  exact ⟨id, d, found, defined, ⟨m, listed, method, known, has.1⟩, fun _ _ _ _ _ => trivial⟩

theorem keepsOperation (h : support.Complete p) {opcode : OpCode}
    (relies : opcode.ReliesOn typeName property) :
    support.KeepsMethods p (fun _ => True) typeName property := by
  cases relies with
  | unbox | unboxAny => exact h.keepsUnboxing
  | box => exact h.boxing "Box" (by simp)
  | _ => exact h.checked _ (by simp)

theorem keepsMethods (h : support.Complete p) (relies : p.ReliesOnMethods e typeName property) :
    support.KeepsMethods p (fun _ => True) typeName property := by
  cases relies with
  | code _ _ _ relies =>
    cases relies with
    | operation relies => exact h.keepsOperation relies
    | operand _ _ relies =>
      cases relies with
      | boxed => exact h.boxing "Box" (by simp)
      | copied => exact h.boxing "UnboxTo" (by simp)
      | unboxed => exact h.unboxing
  | enumeration _ _ _ listed =>
    refine h.boxing _ ?_
    simp only [List.mem_cons, List.not_mem_nil, or_false] at listed ⊢
    tauto

end Support.Complete

theorem Scene.not_lacks_of_complete {scene : Scene} (h : scene.support.Complete scene.program)
    (e : Entity) (error : SupportError) : ¬ scene.Lacks e error := by
  intro lacks
  cases lacks with
  | type relies lacks => exact (h.keepsType relies).not_lacksType lacks
  | methods relies lacks => exact (h.keepsMethods relies).not_lacksMethods lacks

/-! ## Markings and calls -/

/-- The rules of all reached entities apply. -/
def State.Applied (scene : Scene) (s : State) : Prop := ∀ e ∈ s.order.toList, scene.Applies e

/-- How a marking or a call ends, with the state it leaves: the rules of all reached entities apply,
or the one that fails belongs to the entity that was reached last. -/
inductive Ended (scene : Scene) : Except SupportError Unit → State → Prop where
  | done {s : State} (applied : s.Applied scene) : Ended scene (.ok ()) s
  | brokeOff {s : State} {earlier : List Entity} {culprit : Entity} {error : SupportError}
      (order : s.order.toList = earlier ++ [culprit]) (fails : scene.Fails culprit error)
      (others : ∀ e ∈ earlier, scene.Applies e) : Ended scene (.error error) s

variable {scene : Scene}

theorem State.Applied.move {m m' : Machine} (h : m.state.Applied scene) (move : Move scene m m') :
    m'.state.Applied scene := by
  cases move with
  | visit new free visited =>
    obtain ⟨x, applied, -, -⟩ := State.visit_eq_ok visited
    intro e listed
    rw [State.order_visit visited, Array.toList_push] at listed
    rcases List.mem_append.1 listed with before | last
    · exact h e before
    · cases List.mem_singleton.1 last
      exact Scene.applies_of_expand applied
  | _ => exact h

theorem Strategy.ended_mark (strategy : Strategy) {s : State} (h : s.Applied scene) (e : Entity) :
    Ended scene (strategy.mark scene s e).verdict (strategy.mark scene s e).state := by
  obtain ⟨last, moves, stop⟩ := strategy.exists_moves scene s e
  have applied : last.state.Applied scene :=
    Worklist.keeps (P := fun m => m.state.Applied scene) (fun _ _ move h => h.move move) moves h
  generalize strategy.mark scene s e = outcome at stop ⊢
  cases stop with
  | done => exact .done applied
  | @failed s s' source culprit error below new free visited =>
    have fails := Scene.expand_eq_error (State.visit_eq_error visited).1
    have order : s'.order.toList = s.order.toList ++ [culprit] := by
      rw [State.order_visit visited, Array.toList_push]
    exact .brokeOff order (Scene.fails_of_needs fails) applied

namespace Session

theorem ended_markEach (session : Session) (call : Call) (entities : List Entity)
    (h : session.state.Applied session.scene) :
    Ended session.scene (session.markEach call.prepare entities).1
      (session.markEach call.prepare entities).2.state := by
  induction entities generalizing session with
  | nil => exact .done h
  | cons e rest ih =>
    obtain ⟨s, counted, first⟩ := session.markEach_cases call e rest
    have same : s.Applied session.scene := by
      rcases counted with rfl | rfl <;> exact h
    have ended := session.strategy.ended_mark same e
    rcases first with ⟨error, verdict, failed, -⟩ | ⟨verdict, done, -⟩
    · rw [failed]
      rw [verdict] at ended
      exact ended
    · -- The others start from a state in which all rules apply, as the first marking succeeded.
      rw [done]
      rw [verdict] at ended
      cases ended with
      | done applied => exact ih { session with state := _ } applied

theorem ended_perform (session : Session) (call : Call) (h : session.state.Applied session.scene) :
    Ended session.scene (session.perform call).1 (session.perform call).2.state := by
  rw [perform_eq_markEach]
  exact session.ended_markEach call _ h

theorem Succeeds.applied {session : Session} {calls : List Call} (h : session.Succeeds calls)
    (start : session.state.Applied session.scene) :
    (session.after calls).state.Applied session.scene :=
  (h.keeps (P := fun m => m.state.Applied session.scene) State.Applied.move
    (fun _ _ _ applied => applied) (fun _ applied => applied) start).1

theorem ordered_after {session : Session} (start : session.state.Ordered) (calls : List Call) :
    (session.after calls).state.Ordered :=
  (session.preserves_after (keptByVisits_ordered session.scene)
    (fun _ => State.Ordered.countRoot) start calls).1

/-- Calls change nothing but the state. -/
theorem after_eq (session : Session) (calls : List Call) :
    session.after calls = { session with state := (session.after calls).state } := by
  induction calls generalizing session with
  | nil => rfl
  | cons call rest ih =>
    rw [after, ih, perform_eq]

end Session

/-! ## Calls after calls that succeed -/

/-- A call leads from one state to another. It fails for want of support alone, and stops there. -/
structure StopsForSupport (scene : Scene) (before : State) (verdict : Except SupportError Unit)
    (after : State) : Prop where
  /-- The call fails with the error of an entity that it reaches, and only so. -/
  error_iff : ∀ error, verdict = .error error ↔
    ∃ e, after.isReached e ∧ ¬ before.isReached e ∧ scene.Fails e error
  /-- That entity is reached last and lacks what the error names. The rules of all others apply. -/
  last : ∀ error, verdict = .error error → ∃ earlier culprit,
    after.order.toList = earlier ++ [culprit] ∧ ¬ before.isReached culprit ∧
      scene.Fails culprit error ∧ scene.Lacks culprit error ∧ ∀ e ∈ earlier, scene.Applies e
  /-- Nothing but missing support makes the call fail. -/
  fails_iff_lacks : (∃ error, verdict = .error error) ↔
    ∃ e, after.isReached e ∧ ¬ before.isReached e ∧ ∃ error, scene.Lacks e error
  /-- With complete support it succeeds, whatever else the program or the loader is short of. -/
  complete : scene.support.Complete scene.program → verdict = .ok ()

section Verdicts

variable {before after : State} {verdict : Except SupportError Unit} {e : Entity}
  {error : SupportError}

theorem State.Applied.not_isReached (applied : before.Applied scene) (ordered : before.Ordered)
    (fails : scene.Fails e error) : ¬ before.isReached e := by
  intro reached
  exact (applied e ((ordered.mem_iff e).2 reached)).not_fails fails

/-- Only one reached entity can have a rule that fails, and its error is the verdict. -/
theorem Ended.eq_error (ended : Ended scene verdict after) (ordered : after.Ordered)
    (reached : after.isReached e) (fails : scene.Fails e error) : verdict = .error error := by
  cases ended with
  | done applied => exact absurd reached (applied.not_isReached ordered fails)
  | brokeOff order fails' others =>
    have listed := (ordered.mem_iff e).2 reached
    rw [order] at listed
    rcases List.mem_append.1 listed with earlier | same
    · exact absurd fails (others e earlier).not_fails
    · cases List.mem_singleton.1 same
      rw [fails.unique fails']

theorem Ended.error_iff (ended : Ended scene verdict after) (ordered : before.Ordered)
    (ordered' : after.Ordered) (applied : before.Applied scene) (error : SupportError) :
    verdict = .error error ↔
      ∃ e, after.isReached e ∧ ¬ before.isReached e ∧ scene.Fails e error := by
  constructor
  · rintro rfl
    cases ended with
    | @brokeOff _ _ culprit _ order fails others =>
      have reached : after.isReached culprit := by
        rw [← ordered'.mem_iff, order]
        exact List.mem_append_right _ List.mem_cons_self
      exact ⟨culprit, reached, applied.not_isReached ordered fails, fails⟩
  · rintro ⟨e, reached, -, fails⟩
    exact ended.eq_error ordered' reached fails

theorem Ended.stopsForSupport (ended : Ended scene verdict after) (ordered : before.Ordered)
    (ordered' : after.Ordered) (applied : before.Applied scene) :
    StopsForSupport scene before verdict after := by
  have error_iff := ended.error_iff ordered ordered' applied
  constructor
  case error_iff => exact error_iff
  case last =>
    rintro error rfl
    cases ended with
    | brokeOff order fails others =>
      exact ⟨_, _, order, applied.not_isReached ordered fails, fails, fails.lacks, others⟩
  case fails_iff_lacks =>
    simp only [error_iff, ← Scene.exists_fails_iff_exists_lacks]
    constructor
    · rintro ⟨error, e, reached, new, fails⟩
      exact ⟨e, reached, new, error, fails⟩
    · rintro ⟨e, reached, new, error, fails⟩
      exact ⟨error, e, reached, new, fails⟩
  case complete =>
    intro complete
    cases verdict with
    | ok done => rfl
    | error error =>
      obtain ⟨e, -, -, fails⟩ := (error_iff error).1 rfl
      exact absurd fails.lacks (Scene.not_lacks_of_complete complete e error)

end Verdicts

/-- A call on a fresh session, after calls that all succeeded, fails exactly if it reaches an entity
whose rule fails. It then stops at this entity with the error of the rule, and the program lacks the
support that the error names. -/
theorem stopsForSupport_of_succeeds {strategy : Strategy} {loader : Loader} {recordRetention : Bool}
    {calls : List Call} (call : Call)
    (succeeds : (Session.fresh scene strategy loader recordRetention).Succeeds calls) :
    let session := (Session.fresh scene strategy loader recordRetention).after calls
    StopsForSupport scene session.state (session.perform call).1
      (session.perform call).2.state := by
  intro session
  have same : session.scene = scene := by
    rw [show session = _ from Session.after_eq _ calls]
    rfl
  have ordered := Session.ordered_after
    (Session.ordered_fresh scene strategy loader recordRetention) calls
  have start : (Session.fresh scene strategy loader recordRetention).state.Applied scene := by
    simp [State.Applied, Session.fresh]
  have applied := succeeds.applied start
  have ended := session.ended_perform call (same.symm ▸ applied)
  rw [same] at ended
  exact ended.stopsForSupport ordered (Session.ordered_after ordered [call]) applied

/-! ## A program with nothing but its support -/

/-- All support is there, but little else: the type `Outpost` has no base, the method `Main` calls a
method that does not exist and one of a type that is not found, and the class that `Outpost` stands
for cannot be read. -/
def outpost : Program :=
  Program.rebuild {
    types := #[
      .definition
        { namespaceName := "App", name := "Outpost", baseType := some ⟨90⟩, methods := [⟨0⟩]
          foreignImport := some "java.lang.Thread" },
      .reference "App.Mainland",
      .definition { namespaceName := "Compiler.Internal", name := "TypeHelper" },
      .definition { namespaceName := "Compiler.Internal", name := "GenericInstanceAnnotation" },
      .definition {
        namespaceName := "Compiler.Internal", name := "GenericTypeParameterAnnotation" },
      .definition
        { namespaceName := "Compiler.Internal", name := "GenericMethodParameterAnnotation" },
      .definition { namespaceName := "Compiler.Internal", name := "IAttribute" },
      .definition { namespaceName := "Compiler.Internal", name := "IAttributes" },
      .definition { namespaceName := "Compiler.Internal", name := "IAnnotationType" },
      .definition
        { namespaceName := "Compiler.Internal", name := "Checked", methods := [⟨2⟩, ⟨3⟩, ⟨4⟩] },
      .definition
        { namespaceName := "Compiler.Internal", name := "Boxing"
          methods := [⟨5⟩, ⟨6⟩, ⟨7⟩, ⟨8⟩] }]
    methods := #[
      .definition
        { declaringType := ⟨0⟩, name := "Main", returnType := ⟨91⟩
          body := some { instructions :=
            [{ opcode := .call, operand := .method ⟨92⟩ },
              { opcode := .call, operand := .method ⟨1⟩ }, { opcode := .mulOvf }] } },
      .reference { declaringType := ⟨1⟩, name := "Report", returnType := ⟨1⟩ },
      .definition { declaringType := ⟨9⟩, name := "Add", returnType := ⟨91⟩ },
      .definition { declaringType := ⟨9⟩, name := "Sub", returnType := ⟨91⟩ },
      .definition { declaringType := ⟨9⟩, name := "Mul", returnType := ⟨91⟩ },
      .definition { declaringType := ⟨10⟩, name := "Box", returnType := ⟨91⟩ },
      .definition
        { declaringType := ⟨10⟩, name := "UnboxTo", returnType := ⟨91⟩, parameters := [⟨0⟩] },
      .definition { declaringType := ⟨10⟩, name := "UnboxInteger", returnType := ⟨91⟩ },
      .definition { declaringType := ⟨10⟩, name := "UnboxLong", returnType := ⟨91⟩ }]
    parameters := #[{ owner := .method ⟨6⟩, parameterType := ⟨91⟩ }] }

/-- A loader over classes none of which can be read. -/
def unreadable : Loader where
  load _ := .error .malformedDocument
  classes := []
  mem_classes _ _ found := by cases found

set_option maxRecDepth 4000 in
/-- After a call that succeeds, a generic parameter of `bridge` is asked for. The call breaks off at
the type that owns the parameter, before the parameter is reached. On `outpost` every call
succeeds. -/
theorem stopsForSupport_bridge_outpost :
    (let calls : List Call := [.markRoots [.method ⟨1⟩]]
      let session := (Session.ofBridge .recursive).after calls
      let result := session.perform (.mark (some (.genericParameter ⟨0⟩)))
      (Session.ofBridge .recursive).Succeeds calls ∧
        result.1 = .error (.missingType "Compiler.Internal.TypeHelper") ∧
        result.2.isReached (.type ⟨3⟩) ∧ ¬ result.2.isReached (.genericParameter ⟨0⟩) ∧
        StopsForSupport (Session.ofBridge .recursive).scene session.state result.1
          result.2.state) ∧
    ∀ call, ((Session.fresh { program := outpost, includes := fun _ => true } .worklist unreadable
      true).perform call).1 = .ok () := by
  constructor
  · intro calls session result
    have tested := (Session.ofBridge .recursive).attempt_any
      [.markRoots [.method ⟨1⟩], .mark (some (.genericParameter ⟨0⟩))] 100
      (fun entries final => entries.map (·.1) =
        [.ok (), .error (.missingType "Compiler.Internal.TypeHelper")] &&
        final.isReached (.type ⟨3⟩) && !final.isReached (.genericParameter ⟨0⟩)) (by decide +kernel)
    simp only [Bool.and_eq_true, decide_eq_true_eq, Bool.not_eq_true'] at tested
    obtain ⟨⟨verdicts, owner⟩, parameter⟩ := tested
    have each : (Session.ofBridge .recursive |>.perform (.markRoots [.method ⟨1⟩])).1 = .ok () ∧
        result.1 = .error (.missingType "Compiler.Internal.TypeHelper") := by
      obtain ⟨first, rest⟩ := List.cons.inj verdicts
      exact ⟨first, (List.cons.inj rest).1⟩
    have succeeds : (Session.ofBridge .recursive).Succeeds calls :=
      Session.succeeds_cons.2 ⟨each.1, by simp [Session.Succeeds, Session.history]⟩
    exact ⟨succeeds, each.2, owner, Bool.eq_false_iff.1 parameter,
      stopsForSupport_of_succeeds _ succeeds⟩
  · intro call
    have complete : Support.Complete {} outpost := by
      apply Support.complete_of_isOk <;> decide +kernel
    have none : (Session.fresh { program := outpost, includes := fun _ => true } .worklist
        unreadable true).Succeeds [] := by
      simp [Session.Succeeds, Session.history]
    exact (stopsForSupport_of_succeeds call none).complete complete

end Liveset
