import Liveset.Metadata.AttributeForm
import Liveset.Proofs.Metadata.Restoring

/-!
# Attributes are read back

A constant is read with the room that the values around it leave, and its written form nests no
deeper than what it was read from: so it is read back with the same room
(`Constant.restoresIn_of_read`). The two kinds of arguments of an attribute leave different room,
and both keep it.
-/

set_option autoImplicit false

namespace Liveset

namespace Constant

/-- The written form of the constant is plain and is read as the constant with that much room. -/
structure RestoresIn (room : Nat) (c : Constant) : Prop where
  plain : c.form.Plain
  back : ofForm? room c.form = some c

variable {room : Nat}

theorem restoresIn_null : RestoresIn room .null := by
  constructor
  · exact .string "null"
  · rw [form, ofForm?, if_pos rfl]

/-- A constant that holds no list needs room for the object around its payload. -/
theorem restoresIn_tagged {α : Type} [JsonForm α] {make : α → Constant} {name : String} {x : α}
    (fits : 1 ≤ room) (written : (make x).form = .tagged name (toJson x))
    (solid : ∀ items, toJson x ≠ .array items)
    (read : ofPayload? name (toJson x) = (ofJson? (toJson x)).map make) (restored : Restores x) :
    RestoresIn room (make x) := by
  constructor
  · rw [written]
    exact .object (List.forall_mem_singleton.2 restored.plain)
  · rw [written, Json.tagged, ofForm?.eq_3 _ _ _ solid, if_pos fits, read, restored.back]
    rfl

theorem restoresIn_of_payload {name : String} {payload : Json} {c : Constant} (fits : 1 ≤ room)
    (read : ofPayload? name payload = some c) : RestoresIn room c := by
  unfold ofPayload? at read
  split at read
  case h_1 =>
    have null : c = .null := by
      unfold Json.bare at read
      split at read <;> cases read <;> rfl
    rw [null]
    exact restoresIn_null
  case h_6 => cases read
  all_goals
    obtain ⟨_, found, rfl⟩ := Option.map_eq_some_iff.1 read
    refine restoresIn_tagged fits (by rw [form]) ?_ rfl (restores found)
    intro _ list
    cases list

theorem plain_formItems {cs : List Constant} (each : ∀ c ∈ cs, RestoresIn room c) :
    ∀ item ∈ formItems cs, item.Plain := by
  induction cs with
  | nil =>
    rw [formItems]
    exact fun _ none => nomatch none
  | cons c cs ih =>
    rw [List.forall_mem_cons] at each
    rw [formItems, List.forall_mem_cons]
    exact ⟨each.1.plain, ih each.2⟩

theorem ofForms?_formItems {cs : List Constant} (each : ∀ c ∈ cs, RestoresIn room c) :
    ofForms? room (formItems cs) = some cs := by
  induction cs with
  | nil => rw [formItems, ofForms?]
  | cons c cs ih =>
    rw [List.forall_mem_cons] at each
    rw [formItems, ofForms?, each.1.back, ih each.2]
    rfl

/-- A list needs two levels more than its items. -/
theorem restoresIn_array {cs : List Constant} (fits : 2 ≤ room)
    (each : ∀ c ∈ cs, RestoresIn (room - 2) c) : RestoresIn room (.array cs) := by
  constructor
  · rw [form]
    exact .object (List.forall_mem_singleton.2 (.array (plain_formItems each)))
  · rw [form, Json.tagged, ofForm?, if_pos ⟨rfl, fits⟩, ofForms?_formItems each]
    rfl

/-- A constant that was read is read back with the same room. -/
theorem restoresIn_of_read (room : Nat) (value : Json) :
    ∀ c, ofForm? room value = some c → RestoresIn room c := by
  -- by recursion on what was read, for constants and lists of them at once
  refine ofForm?.induct (fun room value => ∀ c, ofForm? room value = some c → RestoresIn room c)
    (fun room items => ∀ cs, ofForms? room items = some cs → ∀ c ∈ cs, RestoresIn room c)
    ?_ ?_ ?_ ?_ ?_ ?_ ?_ ?_ ?_ room value
  · intro room c read
    rw [ofForm?, if_pos rfl] at read
    cases read
    exact restoresIn_null
  · intro room name other c read
    rw [ofForm?, if_neg other] at read
    cases read
  · intro room name items fits ih c read
    rw [ofForm?, if_pos fits] at read
    obtain ⟨cs, found, rfl⟩ := Option.map_eq_some_iff.1 read
    exact restoresIn_array fits.2 (ih cs found)
  · intro room name items other c read
    rw [ofForm?, if_neg other] at read
    cases read
  · intro room name payload solid fits c read
    rw [ofForm?.eq_3 _ _ _ solid, if_pos fits] at read
    exact restoresIn_of_payload fits read
  · intro room name payload solid full c read
    rw [ofForm?.eq_3 _ _ _ solid, if_neg full] at read
    cases read
  · intro value room noString noList noVariant c read
    rw [ofForm?.eq_4 _ _ noString noList noVariant] at read
    cases read
  · intro room cs read
    rw [ofForms?] at read
    cases read
    exact fun _ none => nomatch none
  · intro room item rest first others cs read
    rw [ofForms?] at read
    obtain ⟨c, head, read⟩ := Option.bind_eq_some_iff.1 read
    obtain ⟨tail, found, same⟩ := Option.bind_eq_some_iff.1 read
    cases same
    exact List.forall_mem_cons.2 ⟨first c head, others tail found⟩

end Constant

/-! ## Arguments -/

namespace Argument

/-- An argument that was read is read back with the same room. -/
theorem back_of_read {room : Nat} {value : Json} {a : Argument}
    (read : ofForm? room value = some a) :
    a.form.Plain ∧ ofForm? room a.form = some a := by
  obtain ⟨components, -, read⟩ := Option.bind_eq_some_iff.1 read
  split at read
  case h_2 => cases read
  simp only [↓gave_iff, Option.pure_def, Option.some.injEq] at read
  obtain ⟨_, valueType, c, constant, rfl⟩ := read
  have restored := Constant.restoresIn_of_read room _ c constant
  exact Rereads.record (ofForm? room) ["value_type", "value"] rfl rfl (by decide) (fun _ => rfl) <|
    .required valueType <| .step restored.plain restored.back .done

instance : StableForm Argument where
  restores read := ⟨(back_of_read read).1, (back_of_read read).2⟩

end Argument

instance : StableForm NamedArgument where
  restores {value a} read := by
    obtain ⟨components, -, read⟩ := Option.bind_eq_some_iff.1 read
    split at read
    case h_2 => cases read
    simp only [↓gave_iff, Option.pure_def, Option.some.injEq] at read
    obtain ⟨_, name, _, argument, rfl⟩ := read
    obtain ⟨plain, back⟩ := Argument.back_of_read argument
    exact .of_record ["name", "argument"] rfl rfl (by decide) (fun _ => rfl) <|
      .required name <| .step plain back .done

instance : StableForm Attribute where
  restores {value a} read := by
    obtain ⟨components, -, read⟩ := Option.bind_eq_some_iff.1 read
    split at read
    case h_2 => cases read
    simp only [↓gave_iff, Option.pure_def, Option.some.injEq] at read
    obtain ⟨_, constructor, _, arguments, _, fields, _, properties, rfl⟩ := read
    exact .of_record ["constructor", "arguments", "fields", "properties"] rfl rfl (by decide)
      (fun _ => rfl) <|
      .required constructor <| .orElse restores_nil arguments <| .orElse restores_nil fields <|
      .orElse restores_nil properties .done

end Liveset
