import Liveset.Metadata.MemberForm
import Liveset.Proofs.Json.Restoring

/-!
# Metadata is read back

The forms of handles, entities, types, code and members are stable: what was read from a document is
read back from what is written of it. For code there is one exception, an operand that is a
floating-point number, so the statements about code are for code without one.

Each proof about a record takes the reader apart, component by component, and puts the same
components together again for the written form.
-/

set_option autoImplicit false

namespace Liveset

/-! ## Handles and entities -/

instance : StableForm TypeId := .of_map TypeId.mk (fun _ => rfl) (fun _ => rfl)

instance : StableForm MethodId := .of_map MethodId.mk (fun _ => rfl) (fun _ => rfl)

instance : StableForm FieldId := .of_map FieldId.mk (fun _ => rfl) (fun _ => rfl)

instance : StableForm PropertyId := .of_map PropertyId.mk (fun _ => rfl) (fun _ => rfl)

instance : StableForm EventId := .of_map EventId.mk (fun _ => rfl) (fun _ => rfl)

instance : StableForm ParameterId := .of_map ParameterId.mk (fun _ => rfl) (fun _ => rfl)

instance : StableForm GenericParameterId :=
  .of_map GenericParameterId.mk (fun _ => rfl) (fun _ => rfl)

instance : StableForm AttributeId := .of_map AttributeId.mk (fun _ => rfl) (fun _ => rfl)

instance : StableForm ClassId := .of_map ClassId.mk (fun _ => rfl) (fun _ => rfl)

namespace Entity

/-- The payload of a foreign member that was read is read back. -/
theorem rereads_memberPayload {payload : Json} {owner : ClassId} {position : Nat}
    (read : memberPayload? payload = some (owner, position)) :
    Rereads (owner, position) [toJson owner, toJson position]
      (memberPayload? (.array [toJson owner, toJson position])) := by
  unfold memberPayload? at read
  split at read
  case h_2 => cases read
  case h_1 =>
    simp only [↓gave_iff, Option.pure_def, Option.some.injEq] at read
    obtain ⟨_, owner, _, position, same⟩ := read
    cases same
    exact .of_restores (restores owner) <| .of_restores (restores position) .done

theorem restores_member {make : ClassId → Nat → Entity} {name : String} {owner : ClassId}
    {position : Nat}
    (written : form (make owner position) = .tagged name (.array [toJson owner, toJson position]))
    (read : ∀ payload, ofForm? (.tagged name payload) =
      (memberPayload? payload).map fun p => make p.1 p.2)
    {payload : Json} (found : memberPayload? payload = some (owner, position)) :
    Restores (make owner position) := by
  have chain := rereads_memberPayload found
  constructor
  · show (form _).Plain
    rw [written]
    exact .object (List.forall_mem_singleton.2 (.array chain.plain))
  · show ofForm? (form _) = _
    rw [written, read, chain.back]
    rfl

instance : StableForm Entity where
  restores {value entity} read := by
    obtain ⟨⟨name, payload⟩, -, read⟩ := Option.bind_eq_some_iff.1 read
    cases payload with
    | none => cases read
    | some payload =>
      dsimp only at read
      split at read
      case h_12 => cases read
      case h_10 =>
        obtain ⟨_, found, rfl⟩ := Option.map_eq_some_iff.1 read
        exact restores_member rfl (fun _ => rfl) found
      case h_11 =>
        obtain ⟨_, found, rfl⟩ := Option.map_eq_some_iff.1 read
        exact restores_member rfl (fun _ => rfl) found
      all_goals
        obtain ⟨_, found, rfl⟩ := Option.map_eq_some_iff.1 read
        exact (restores found).tagged rfl rfl

end Entity

/-! ## Types -/

theorem Visibility.restores (v : Visibility) : Restores v := by
  cases v <;> exact ⟨.string _, rfl⟩

instance : StableForm Visibility where
  restores _ := Visibility.restores _

theorem TypeFlags.restores (f : TypeFlags) : Restores f :=
  .of_record names rfl rfl (by decide) (fun _ => rfl) <|
    .of_restores (restores_bool _) <| .of_restores (restores_bool _) <|
    .of_restores (restores_bool _) <| .of_restores (restores_bool _) <|
    .of_restores (restores_bool _) .done

instance : StableForm TypeFlags where
  restores _ := TypeFlags.restores _

instance : StableForm TypeDefinition where
  restores {value d} read := by
    obtain ⟨components, -, read⟩ := Option.bind_eq_some_iff.1 read
    split at read
    case h_2 => cases read
    simp only [↓gave_iff, Option.pure_def, Option.some.injEq] at read
    obtain ⟨_, namespaceName, _, name, _, declaringType, _, baseType, _, interfaces, _, visibility,
      _, flags, _, methods, _, fields, _, properties, _, events, _, genericParameters, _,
      attributes, _, foreignImport, rfl⟩ := read
    exact .of_record TypeDefinition.names rfl rfl (by decide) (fun _ => rfl) <|
      .orElse (restores_string _) namespaceName <| .required name <| .optional rfl declaringType <|
      .optional rfl baseType <| .orElse restores_nil interfaces <|
      .orElse (Visibility.restores _) visibility <| .orElse (TypeFlags.restores _) flags <|
      .orElse restores_nil methods <| .orElse restores_nil fields <|
      .orElse restores_nil properties <| .orElse restores_nil events <|
      .orElse restores_nil genericParameters <| .orElse restores_nil attributes <|
      .optional rfl foreignImport .done

theorem TypeSpecification.restores_of_payload {name : String} {payload : Json}
    {s : TypeSpecification} (read : ofPayload? name payload = some s) : Restores s := by
  unfold ofPayload? at read
  split at read
  case h_8 => cases read
  all_goals
    obtain ⟨components, -, read⟩ := Option.bind_eq_some_iff.1 read
    split at read
    case h_2 => cases read
    simp only [↓gave_iff, Option.pure_def, Option.some.injEq] at read
  · obtain ⟨_, element, _, arguments, rfl⟩ := read
    exact .of_taggedRecord ["element", "arguments"] rfl rfl (by decide) (fun _ => rfl) <|
      .required element <| .required arguments .done
  · obtain ⟨_, element, _, rank, rfl⟩ := read
    exact .of_taggedRecord ["element", "rank"] rfl rfl (by decide) (fun _ => rfl) <|
      .required element <| .orElse (restores_nat (by decide)) rank .done
  · obtain ⟨_, element, rfl⟩ := read
    exact .of_taggedRecord ["element"] rfl rfl (by decide) (fun _ => rfl) <| .required element .done
  · obtain ⟨_, element, rfl⟩ := read
    exact .of_taggedRecord ["element"] rfl rfl (by decide) (fun _ => rfl) <| .required element .done
  · obtain ⟨_, returnType, _, parameters, rfl⟩ := read
    exact .of_taggedRecord ["return_type", "parameters"] rfl rfl (by decide) (fun _ => rfl) <|
      .required returnType <| .orElse restores_nil parameters .done
  · obtain ⟨_, element, _, modifier, rfl⟩ := read
    exact .of_taggedRecord ["element", "modifier"] rfl rfl (by decide) (fun _ => rfl) <|
      .required element <| .required modifier .done
  · obtain ⟨_, element, _, modifier, rfl⟩ := read
    exact .of_taggedRecord ["element", "modifier"] rfl rfl (by decide) (fun _ => rfl) <|
      .required element <| .required modifier .done

instance : StableForm TypeSpecification where
  restores {value s} read := by
    obtain ⟨⟨name, payload⟩, -, read⟩ := Option.bind_eq_some_iff.1 read
    cases payload with
    | none => cases read
    | some payload => exact TypeSpecification.restores_of_payload read

instance : StableForm TypeNode where
  restores {value node} read := by
    obtain ⟨⟨name, payload⟩, -, read⟩ := Option.bind_eq_some_iff.1 read
    cases payload with
    | none => cases read
    | some payload =>
      dsimp only at read
      split at read
      case h_4 =>
        obtain ⟨components, -, read⟩ := Option.bind_eq_some_iff.1 read
        split at read
        case h_2 => cases read
        simp only [↓gave_iff, Option.pure_def, Option.some.injEq] at read
        obtain ⟨_, fullName, rfl⟩ := read
        exact .of_taggedRecord ["full_name"] rfl rfl (by decide) (fun _ => rfl) <|
          .required fullName .done
      case h_5 => cases read
      all_goals
        obtain ⟨_, found, rfl⟩ := Option.map_eq_some_iff.1 read
        exact (restores found).tagged rfl rfl

/-! ## Code -/

theorem OpCode.restores (opcode : OpCode) : Restores opcode := by
  cases opcode <;> exact ⟨.string _, rfl⟩

instance : StableForm OpCode where
  restores _ := OpCode.restores _

/-- Is the operand a floating-point number? -/
def Operand.isFloat : Operand → Bool
  | .float _ => true
  | _ => false

theorem Operand.restores_none : Restores Operand.none := ⟨.string "none", rfl⟩

theorem Operand.restores_of_read {value : Json} {operand : Operand}
    (read : ofJson? value = some operand) (floatFree : operand.isFloat = false) :
    Restores operand := by
  obtain ⟨variant, -, read⟩ := Option.bind_eq_some_iff.1 read
  split at read
  case h_1 payload =>
    have none : operand = .none := by
      unfold Json.bare at read
      split at read <;> cases read <;> rfl
    rw [none]
    exact restores_none
  case h_2 =>
    unfold ofPayload? at read
    split at read
    case h_7 =>
      obtain ⟨_, -, rfl⟩ := Option.map_eq_some_iff.1 read
      cases floatFree
    case h_10 => cases read
    all_goals
      obtain ⟨_, found, rfl⟩ := Option.map_eq_some_iff.1 read
      exact (restores found).tagged rfl rfl
  case h_3 => cases read

theorem Instruction.restores_of_read {value : Json} {i : Instruction}
    (read : ofJson? value = some i) (floatFree : i.operand.isFloat = false) : Restores i := by
  obtain ⟨components, -, read⟩ := Option.bind_eq_some_iff.1 read
  split at read
  case h_2 => cases read
  simp only [↓gave_iff, Option.pure_def, Option.some.injEq] at read
  obtain ⟨_, opcode, operand, given, rfl⟩ := read
  have restored : Restores operand := by
    rcases Json.eq_or_exists_of_orElse given with rfl | ⟨_, found⟩
    · exact Operand.restores_none
    · exact Operand.restores_of_read found floatFree
  exact .of_record ["opcode", "operand"] rfl rfl (by decide) (fun _ => rfl) <|
    .required opcode <| .of_restores restored .done

instance : StableForm Handler where
  restores {value h} read := by
    obtain ⟨components, -, read⟩ := Option.bind_eq_some_iff.1 read
    split at read
    case h_2 => cases read
    simp only [↓gave_iff, Option.pure_def, Option.some.injEq] at read
    obtain ⟨_, catchType, rfl⟩ := read
    exact .of_record ["catch_type"] rfl rfl (by decide)
      (fun _ => rfl) <| .optional rfl catchType .done

/-- No instruction has a floating-point number as operand. -/
def MethodBody.FloatFree (b : MethodBody) : Prop := ∀ i ∈ b.instructions, i.operand.isFloat = false

instance (b : MethodBody) : Decidable b.FloatFree :=
  inferInstanceAs (Decidable (∀ i ∈ b.instructions, i.operand.isFloat = false))

theorem MethodBody.restores_of_read {value : Json} {b : MethodBody} (read : ofJson? value = some b)
    (floatFree : b.FloatFree) : Restores b := by
  obtain ⟨components, -, read⟩ := Option.bind_eq_some_iff.1 read
  split at read
  case h_2 => cases read
  simp only [↓gave_iff, Option.pure_def, Option.some.injEq] at read
  obtain ⟨_, locals, _, handlers, instructions, given, rfl⟩ := read
  have restored : Restores instructions := by
    rcases Json.eq_or_exists_of_orElse given with rfl | ⟨_, found⟩
    · exact restores_nil
    · refine restores_list ?_
      intro i member
      obtain ⟨_, item⟩ := exists_read_of_mem found member
      exact Instruction.restores_of_read item (floatFree i member)
  exact .of_record ["locals", "handlers", "instructions"] rfl rfl (by decide) (fun _ => rfl) <|
    .orElse restores_nil locals <| .orElse restores_nil handlers <| .of_restores restored .done

/-! ## Methods -/

theorem MemberImport.restores (i : MemberImport) : Restores i :=
  .of_record ["class_name", "member_name", "descriptor"] rfl rfl (by decide) (fun _ => rfl) <|
    .of_restores (restores_string _) <| .of_restores (restores_string _) <|
    .of_restores (restores_string _) .done

instance : StableForm MemberImport where
  restores _ := MemberImport.restores _

theorem Semantics.restores (s : Semantics) : Restores s := by
  cases s <;> exact ⟨.string _, rfl⟩

instance : StableForm Semantics where
  restores _ := Semantics.restores _

theorem MethodFlags.restores (f : MethodFlags) : Restores f :=
  .of_record names rfl rfl (by decide) (fun _ => rfl) <|
    .of_restores (restores_bool _) <| .of_restores (restores_bool _) <|
    .of_restores (restores_bool _) <| .of_restores (restores_bool _) .done

instance : StableForm MethodFlags where
  restores _ := MethodFlags.restores _

/-- The body, if there is one, has no floating-point operand. -/
def MethodDefinition.FloatFree (d : MethodDefinition) : Prop := ∀ b ∈ d.body, b.FloatFree

instance (d : MethodDefinition) : Decidable d.FloatFree :=
  inferInstanceAs (Decidable (∀ b ∈ d.body, b.FloatFree))

/-- A method definition that was read is read back, whatever part it has been given since. -/
theorem MethodDefinition.restores_of_read {value : Json} {d : MethodDefinition}
    (read : ofJson? value = some d) (floatFree : d.FloatFree) (part : Semantics) :
    Restores { d with semantics := part } := by
  obtain ⟨components, -, read⟩ := Option.bind_eq_some_iff.1 read
  split at read
  case h_2 => cases read
  simp only [↓gave_iff, Option.pure_def, Option.some.injEq] at read
  obtain ⟨_, declaringType, _, name, _, returnType, _, parameters, _, genericParameters, _,
    visibility, _, flags, _, -, _, overrides, body, given, _, attributes, _, imported, rfl⟩ := read
  have restored : ∀ b, body = some b → Restores b := by
    rintro b rfl
    obtain ⟨_, found⟩ := Json.exists_of_optional given
    exact MethodBody.restores_of_read found (floatFree b rfl)
  exact .of_record names rfl rfl (by decide) (fun _ => rfl) <|
    .required declaringType <| .required name <| .required returnType <|
    .orElse restores_nil parameters <| .orElse restores_nil genericParameters <|
    .orElse (Visibility.restores _) visibility <| .orElse (MethodFlags.restores _) flags <|
    .of_restores (Semantics.restores part) <| .orElse restores_nil overrides <|
    .of_option rfl restored <| .orElse restores_nil attributes <| .optional rfl imported .done

instance : StableForm MethodReference where
  restores {value r} read := by
    obtain ⟨components, -, read⟩ := Option.bind_eq_some_iff.1 read
    split at read
    case h_2 => cases read
    simp only [↓gave_iff, Option.pure_def, Option.some.injEq] at read
    obtain ⟨_, declaringType, _, name, _, returnType, _, parameterTypes, rfl⟩ := read
    exact .of_record ["declaring_type", "name", "return_type", "parameter_types"] rfl rfl
      (by decide) (fun _ => rfl) <|
      .required declaringType <| .required name <| .required returnType <|
      .orElse restores_nil parameterTypes .done

/-- What was read of a method node: a definition, or a node that restores. -/
theorem MethodNode.restores_of_read {value : Json} {node : MethodNode}
    (read : ofJson? value = some node) :
    (∃ d, node = .definition d ∧ ∃ payload : Json, ofJson? payload = some d) ∨
      (node.definition? = none ∧ Restores node) := by
  obtain ⟨⟨name, payload⟩, -, read⟩ := Option.bind_eq_some_iff.1 read
  cases payload with
  | none => cases read
  | some payload =>
    dsimp only at read
    split at read
    case h_1 =>
      obtain ⟨d, found, rfl⟩ := Option.map_eq_some_iff.1 read
      exact .inl ⟨d, rfl, payload, found⟩
    case h_2 =>
      obtain ⟨components, -, read⟩ := Option.bind_eq_some_iff.1 read
      split at read
      case h_2 => cases read
      simp only [↓gave_iff, Option.pure_def, Option.some.injEq] at read
      obtain ⟨_, element, _, arguments, rfl⟩ := read
      refine .inr ⟨rfl, ?_⟩
      exact .of_taggedRecord ["element", "arguments"] rfl rfl (by decide) (fun _ => rfl) <|
        .required element <| .required arguments .done
    case h_3 =>
      obtain ⟨r, found, rfl⟩ := Option.map_eq_some_iff.1 read
      exact .inr ⟨rfl, (restores found).tagged rfl rfl⟩
    case h_4 => cases read

/-! ## Fields, properties and events -/

instance : StableForm FieldDefinition where
  restores {value d} read := by
    obtain ⟨components, -, read⟩ := Option.bind_eq_some_iff.1 read
    split at read
    case h_2 => cases read
    simp only [↓gave_iff, Option.pure_def, Option.some.injEq] at read
    obtain ⟨_, declaringType, _, name, _, fieldType, _, visibility, _, static, _, resourceId, _,
      attributes, _, imported, rfl⟩ := read
    exact .of_record FieldDefinition.names rfl rfl (by decide) (fun _ => rfl) <|
      .required declaringType <| .required name <| .required fieldType <|
      .orElse (Visibility.restores _) visibility <| .orElse (restores_bool _) static <|
      .orElse (restores_bool _) resourceId <| .orElse restores_nil attributes <|
      .optional rfl imported .done

instance : StableForm FieldReference where
  restores {value r} read := by
    obtain ⟨components, -, read⟩ := Option.bind_eq_some_iff.1 read
    split at read
    case h_2 => cases read
    simp only [↓gave_iff, Option.pure_def, Option.some.injEq] at read
    obtain ⟨_, declaringType, _, name, _, fieldType, rfl⟩ := read
    exact .of_record ["declaring_type", "name", "field_type"] rfl rfl (by decide) (fun _ => rfl) <|
      .required declaringType <| .required name <| .required fieldType .done

instance : StableForm FieldNode where
  restores {value node} read := by
    obtain ⟨⟨name, payload⟩, -, read⟩ := Option.bind_eq_some_iff.1 read
    cases payload with
    | none => cases read
    | some payload =>
      dsimp only at read
      split at read
      case h_3 => cases read
      all_goals
        obtain ⟨_, found, rfl⟩ := Option.map_eq_some_iff.1 read
        exact (restores found).tagged rfl rfl

instance : StableForm Property where
  restores {value p} read := by
    obtain ⟨components, -, read⟩ := Option.bind_eq_some_iff.1 read
    split at read
    case h_2 => cases read
    simp only [↓gave_iff, Option.pure_def, Option.some.injEq] at read
    obtain ⟨_, declaringType, _, name, _, propertyType, _, parameters, _, getter, _, setter, _,
      attributes, rfl⟩ := read
    exact .of_record Property.names rfl rfl (by decide) (fun _ => rfl) <|
      .required declaringType <| .required name <| .required propertyType <|
      .orElse restores_nil parameters <| .optional rfl getter <| .optional rfl setter <|
      .orElse restores_nil attributes .done

instance : StableForm Event where
  restores {value e} read := by
    obtain ⟨components, -, read⟩ := Option.bind_eq_some_iff.1 read
    split at read
    case h_2 => cases read
    simp only [↓gave_iff, Option.pure_def, Option.some.injEq] at read
    obtain ⟨_, declaringType, _, name, _, eventType, _, add, _, remove, _, invoke, _, attributes,
      rfl⟩ := read
    exact .of_record Event.names rfl rfl (by decide) (fun _ => rfl) <|
      .required declaringType <| .required name <| .required eventType <| .optional rfl add <|
      .optional rfl remove <| .optional rfl invoke <| .orElse restores_nil attributes .done

/-! ## Parameters -/

instance : StableForm ParameterOwner where
  restores {value owner} read := by
    obtain ⟨⟨name, payload⟩, -, read⟩ := Option.bind_eq_some_iff.1 read
    cases payload with
    | none => cases read
    | some payload =>
      dsimp only at read
      split at read
      case h_3 => cases read
      all_goals
        obtain ⟨_, found, rfl⟩ := Option.map_eq_some_iff.1 read
        exact (restores found).tagged rfl rfl

instance : StableForm Parameter where
  restores {value p} read := by
    obtain ⟨components, -, read⟩ := Option.bind_eq_some_iff.1 read
    split at read
    case h_2 => cases read
    simp only [↓gave_iff, Option.pure_def, Option.some.injEq] at read
    obtain ⟨_, owner, _, name, _, parameterType, _, attributes, rfl⟩ := read
    exact .of_record ["owner", "name", "parameter_type", "attributes"] rfl rfl (by decide)
      (fun _ => rfl) <|
      .required owner <| .orElse (restores_string _) name <| .required parameterType <|
      .orElse restores_nil attributes .done

instance : StableForm GenericOwner where
  restores {value owner} read := by
    obtain ⟨⟨name, payload⟩, -, read⟩ := Option.bind_eq_some_iff.1 read
    cases payload with
    | none => cases read
    | some payload =>
      dsimp only at read
      split at read
      case h_3 => cases read
      all_goals
        obtain ⟨_, found, rfl⟩ := Option.map_eq_some_iff.1 read
        exact (restores found).tagged rfl rfl

instance : StableForm GenericParameter where
  restores {value g} read := by
    obtain ⟨components, -, read⟩ := Option.bind_eq_some_iff.1 read
    split at read
    case h_2 => cases read
    simp only [↓gave_iff, Option.pure_def, Option.some.injEq] at read
    obtain ⟨_, owner, _, name, _, constraints, _, attributes, rfl⟩ := read
    exact .of_record ["owner", "name", "constraints", "attributes"] rfl rfl (by decide)
      (fun _ => rfl) <|
      .required owner <| .required name <| .orElse restores_nil constraints <|
      .orElse restores_nil attributes .done

end Liveset
