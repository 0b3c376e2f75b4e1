import Liveset.Proofs.Program.BaseChain
import Liveset.Proofs.Reach.Resolution

/-!
# The arguments of attributes

A reached attribute keeps its constructor, and what its arguments speak of: the types named in
constants that are declared to hold types, at any depth (`Constant.Holds`), and for a named argument
the members of that name in the attribute type and everywhere on its base chain
(`Attribute.LooksIn`).

Main statement: after calls that all succeed, every reached attribute has been walked in this sense
(`walkedAttributes_of_succeeds`).
-/

set_option autoImplicit false

namespace Liveset

/-! ## Constants -/

/-- The constant is the type, or a list with an item that holds it. -/
inductive Constant.Holds (id : TypeId) : Constant → Prop where
  | type : Holds id (.type id)
  | array {items : List Constant} {item : Constant} (listed : item ∈ items) (held : Holds id item) :
      Holds id (.array items)

namespace Constant

theorem mem_typesOf {id : TypeId} {item : Constant} {items : List Constant} (listed : item ∈ items)
    (named : id ∈ item.types) : id ∈ typesOf items := by
  induction listed with
  | head rest => exact List.mem_append_left _ named
  | tail first _ ih => exact List.mem_append_right _ ih

/-- The types named in a constant are all that it holds. -/
theorem Holds.mem_types {id : TypeId} {c : Constant} (held : c.Holds id) : id ∈ c.types := by
  induction held with
  | type => exact List.mem_singleton_self id
  | array listed _ ih => exact mem_typesOf listed ih

end Constant

/-! ## What is asked of a pass -/

/-- If the constant is declared to hold types, the types in it are reached. -/
def State.ReachesHeld (s : State) (p : Program) (declared : TypeId) (value : Constant) : Prop :=
  p.fullName declared = "System.Type" ∨ p.fullName declared = "System.Type[]" →
    ∀ id, value.Holds id → s.isReached (.type id)

/-- The type is the attribute type or one of its base types. -/
def Attribute.LooksIn (p : Program) (a : Attribute) (type : TypeId) : Prop :=
  ∃ declaring, (p.methodDeclaringType? a.constructor).bind p.resolveType? = some declaring ∧
    Relation.ReflTransGen p.HasBase declaring type

/-- A named argument has been walked: its type, the members it is meant for and the types in it are
reached. -/
structure NamedArgument.Walked (p : Program) (s : State) (IsMember : Entity → Prop)
    (named : NamedArgument) : Prop where
  valueType : s.isReached (.type named.argument.valueType)
  members : ∀ e, IsMember e → s.isReached e
  held : s.ReachesHeld p named.argument.valueType named.argument.value

namespace Attribute

/-- A field definition of that name, listed by the attribute type or one of its base types. -/
inductive IsField (p : Program) (a : Attribute) (name : String) : Entity → Prop where
  | listed {type : TypeId} {owner : TypeDefinition} {f : FieldId} {d : FieldDefinition}
      (looksIn : a.LooksIn p type) (owns : p.typeDefinition? type = some owner)
      (listed : f ∈ owner.fields) (defined : p.fieldDefinition? f = some d)
      (called : d.name = name) : IsField p a name (.field f)

/-- A property of that name, listed by the attribute type or one of its base types. -/
inductive IsProperty (p : Program) (a : Attribute) (name : String) : Entity → Prop where
  | listed {type : TypeId} {owner : TypeDefinition} {q : PropertyId} {d : Property}
      (looksIn : a.LooksIn p type) (owns : p.typeDefinition? type = some owner)
      (listed : q ∈ owner.properties) (found : p.property? q = some d)
      (called : d.name = name) : IsProperty p a name (.property q)

/-- An attribute has been walked. The arguments of the constructor go with its parameters as far as
there are both. -/
structure Walked (p : Program) (s : State) (a : Attribute) : Prop where
  constructor : s.isReached (.method a.constructor)
  arguments : ∀ (signature : Program.Signature) (i : Nat) (declared : TypeId) (argument : Argument),
    p.methodSignature? a.constructor = some signature →
    signature.parameterTypes[i]? = some declared → a.arguments[i]? = some argument →
    s.ReachesHeld p declared argument.value
  fields : ∀ named ∈ a.fields, named.Walked p s (a.IsField p named.name)
  properties : ∀ named ∈ a.properties, named.Walked p s (a.IsProperty p named.name)

end Attribute

/-! ## What an attribute needs -/

namespace Program

variable {p : Program} {a : Attribute}

theorem type_mem_typeValueNeeds {declared : TypeId} {value : Constant} {id : TypeId}
    (holdsTypes : p.fullName declared = "System.Type" ∨ p.fullName declared = "System.Type[]")
    (held : value.Holds id) : .entity (.type id) ∈ p.typeValueNeeds declared value := by
  have valued : isTypeValued (p.fullName declared) := by simpa [isTypeValued] using holdsTypes
  rw [typeValueNeeds, if_pos valued]
  exact List.mem_map.2 ⟨id, held.mem_types, rfl⟩

theorem mem_positionalNeeds {signature : Signature} {i : Nat} {declared : TypeId}
    {argument : Argument} (signed : p.methodSignature? a.constructor = some signature)
    (parameter : signature.parameterTypes[i]? = some declared)
    (given : a.arguments[i]? = some argument) {need : Need}
    (needed : need ∈ p.typeValueNeeds declared argument.value) :
    need ∈ p.positionalNeeds a := by
  -- Pairing stops at the shorter of the two lists, and the position lies inside both.
  have paired : (declared, argument) ∈ signature.parameterTypes.zip a.arguments := by
    apply List.mem_of_getElem? (i := i)
    exact List.getElem?_zip_eq_some.2 ⟨parameter, given⟩
  rw [positionalNeeds, signed]
  exact List.mem_flatMap.2 ⟨_, paired, needed⟩

/-- The definitions in which named arguments are looked up are those of the attribute type and its
base types. -/
theorem mem_attributeHierarchy_iff {d : TypeDefinition} :
    d ∈ p.attributeHierarchy a.constructor ↔
      ∃ type, a.LooksIn p type ∧ p.typeDefinition? type = some d := by
  rw [attributeHierarchy]
  cases denoted : (p.methodDeclaringType? a.constructor).bind p.resolveType? with
  | none => simp [Attribute.LooksIn, denoted]
  | some declaring =>
    simp only [List.mem_filterMap, mem_cons_baseTypes_iff, Attribute.LooksIn, denoted,
      Option.some.injEq, exists_eq_left']

theorem mem_fieldsCalled {name : String} {e : Entity} (member : a.IsField p name e) :
    e ∈ p.fieldsCalled (p.attributeHierarchy a.constructor) name := by
  obtain ⟨looksIn, owns, listed, defined, called⟩ := member
  refine List.mem_flatMap.2 ⟨_, mem_attributeHierarchy_iff.2 ⟨_, looksIn, owns⟩, ?_⟩
  apply List.mem_map_of_mem
  exact List.mem_filter.2 ⟨listed, by simp [defined, called]⟩

theorem mem_propertiesCalled {name : String} {e : Entity} (member : a.IsProperty p name e) :
    e ∈ p.propertiesCalled (p.attributeHierarchy a.constructor) name := by
  obtain ⟨looksIn, owns, listed, found, called⟩ := member
  refine List.mem_flatMap.2 ⟨_, mem_attributeHierarchy_iff.2 ⟨_, looksIn, owns⟩, ?_⟩
  apply List.mem_map_of_mem
  exact List.mem_filter.2 ⟨listed, by simp [found, called]⟩

end Program

/-! ## Passes -/

/-- A named argument has been walked once what it needs is reached. -/
theorem NamedArgument.walked_of_needs {p : Program} {s : State} {IsMember : Entity → Prop}
    {members : List Entity} {named : NamedArgument} (looked : ∀ e, IsMember e → e ∈ members)
    (kept : ∀ target, .entity target ∈ p.namedNeeds members named → s.isReached target) :
    named.Walked p s IsMember := by
  constructor
  case valueType => exact kept _ List.mem_cons_self
  case members =>
    intro e member
    apply kept
    exact List.mem_cons_of_mem _ (List.mem_append_left _ (List.mem_map_of_mem (looked e member)))
  case held =>
    intro holdsTypes id held
    apply kept
    exact List.mem_cons_of_mem _
      (List.mem_append_right _ (Program.type_mem_typeValueNeeds holdsTypes held))

/-- An attribute has been walked once what it needs is reached. -/
theorem Attribute.walked_of_needs {p : Program} {s : State} {a : Attribute}
    (kept : ∀ target, .entity target ∈ p.attributeRule a → s.isReached target) : a.Walked p s := by
  constructor
  case constructor => exact kept _ List.mem_cons_self
  case arguments =>
    intro signature i declared argument signed parameter given holdsTypes id held
    have needed := Program.mem_positionalNeeds signed parameter given
      (Program.type_mem_typeValueNeeds holdsTypes held)
    apply kept
    exact List.mem_cons_of_mem _ (List.mem_append_left _ (List.mem_append_left _ needed))
  case fields =>
    intro named listed
    apply NamedArgument.walked_of_needs fun e => Program.mem_fieldsCalled
    intro target needed
    apply kept
    exact List.mem_cons_of_mem _ (List.mem_append_left _
      (List.mem_append_right _ (List.mem_flatMap.2 ⟨named, listed, needed⟩)))
  case properties =>
    intro named listed
    apply NamedArgument.walked_of_needs fun e => Program.mem_propertiesCalled
    intro target needed
    apply kept
    exact List.mem_cons_of_mem _
      (List.mem_append_right _ (List.mem_flatMap.2 ⟨named, listed, needed⟩))

theorem State.Heeds.walked {scene : Scene} {s : State} (heeds : s.Heeds scene) {id : AttributeId}
    {a : Attribute} (reached : s.isReached (.attribute id))
    (found : scene.program.attribute? id = some a) :
    a.Walked scene.program s := by
  apply Attribute.walked_of_needs
  intro target needed
  refine heeds.isReached_named rfl reached fun needs asked => ?_
  rw [Scene.needs, found] at asked
  cases asked
  exact needed

/-- The arguments of attributes are walked. Calls that all succeed have walked every attribute that
is reached after them. -/
theorem walkedAttributes_of_succeeds {scene : Scene} {strategy : Strategy} {loader : Loader}
    {recordRetention : Bool} {calls : List Call}
    (succeeds : (Session.fresh scene strategy loader recordRetention).Succeeds calls) :
    ∀ id a,
      ((Session.fresh scene strategy loader recordRetention).after calls).isReached
        (.attribute id) →
      scene.program.attribute? id = some a →
      a.Walked scene.program
        ((Session.fresh scene strategy loader recordRetention).after calls).state := by
  intro id a reached found
  have heeds := succeeds.heeds (Session.heeds_fresh scene strategy loader recordRetention)
  exact heeds.walked reached found

/-- The attribute type `Label` has its base type by a reference, and that has its own by an
instance. The argument of the constructor names a type two lists deep. The named field belongs to
the last type of the chain, the named property to the one before, and the type in the property's
constant is not declared to be one. -/
def labels : Program :=
  Program.rebuild {
    types := #[
      .definition {
        namespaceName := "App", name := "Label", methods := [⟨0⟩], baseType := some ⟨1⟩ },
      .reference "App.Owned",
      .definition {
        namespaceName := "App", name := "Owned", properties := [⟨0⟩], baseType := some ⟨3⟩ },
      .specification (.genericInstance ⟨4⟩ [⟨5⟩]),
      .definition { namespaceName := "App", name := "Kinded", fields := [⟨0⟩, ⟨1⟩] },
      .reference "System.Type",
      .specification (.array ⟨5⟩ 1),
      .reference "System.Int32",
      .definition { namespaceName := "App", name := "Nested" },
      .definition { namespaceName := "App", name := "Plain" },
      .definition { namespaceName := "App", name := "Number" }]
    methods := #[
      .definition { declaringType := ⟨0⟩, name := ".ctor", returnType := ⟨7⟩ },
      .reference {
        declaringType := ⟨0⟩, name := ".ctor", returnType := ⟨7⟩, parameterTypes := [⟨7⟩, ⟨6⟩] }]
    fields := #[
      .definition { declaringType := ⟨4⟩, name := "kind", fieldType := ⟨5⟩ },
      .definition { declaringType := ⟨4⟩, name := "other", fieldType := ⟨5⟩ }]
    properties := #[{ declaringType := ⟨2⟩, name := "Owner", propertyType := ⟨7⟩ }]
    attributes := #[
      { constructor := ⟨1⟩
        arguments := [⟨⟨7⟩, .type ⟨10⟩⟩, ⟨⟨6⟩, .array [.null, .array [.type ⟨8⟩]]⟩]
        fields := [⟨"kind", ⟨5⟩, .type ⟨9⟩⟩]
        properties := [⟨"Owner", ⟨7⟩, .type ⟨10⟩⟩] }] }

set_option maxRecDepth 4000 in
/-- Marking the attribute reaches the named members and the types that are declared to be types, but
not the other type and the other field. -/
theorem walkedAttributes_labels :
    let session :=
      Session.fresh { program := labels, includes := fun _ => false } .recursive .empty false
    let calls : List Call := [.mark (some (.attribute ⟨0⟩))]
    session.Succeeds calls ∧
      (∃ a, labels.attribute? ⟨0⟩ = some a ∧ a.Walked labels (session.after calls).state ∧
        a.IsField labels "kind" (.field ⟨0⟩) ∧ a.IsProperty labels "Owner" (.property ⟨0⟩)) ∧
      [.field ⟨0⟩, .property ⟨0⟩, .type ⟨8⟩, .type ⟨9⟩].all (session.after calls).isReached ∧
      [.field ⟨1⟩, .type ⟨10⟩].all fun e => !(session.after calls).isReached e := by
  intro session calls
  have tested := session.attempt_any calls 100
    (fun entries final => entries.all (·.1.isOk) && final.isReached (.attribute ⟨0⟩) &&
      [.field ⟨0⟩, .property ⟨0⟩, .type ⟨8⟩, .type ⟨9⟩].all final.isReached &&
      [.field ⟨1⟩, .type ⟨10⟩].all fun e => !final.isReached e) (by decide +kernel)
  simp only [Bool.and_eq_true] at tested
  obtain ⟨⟨⟨ok, marked⟩, kept⟩, leftOut⟩ := tested
  have succeeds := Session.succeeds_of_isOk ok
  have owned : labels.HasBase ⟨0⟩ ⟨2⟩ := by decide +kernel
  have kinded : labels.HasBase ⟨2⟩ ⟨4⟩ := by decide +kernel
  refine ⟨succeeds, ⟨_, rfl, walkedAttributes_of_succeeds succeeds ⟨0⟩ _ marked rfl, ?_, ?_⟩,
    kept, leftOut⟩
  · exact .listed ⟨⟨0⟩, rfl, .tail (.single owned) kinded⟩ rfl List.mem_cons_self rfl rfl
  · exact .listed ⟨⟨0⟩, rfl, .single owned⟩ rfl List.mem_cons_self rfl rfl

end Liveset
