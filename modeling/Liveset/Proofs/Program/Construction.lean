import Liveset.Program.Builder
import Liveset.Proofs.Program.Registration

/-!
# Programs built step by step

An `Operation` is one call of the builder with what it is given, and `Program.build` performs a list
of them. Handles stay valid for good: an operation leaves every node that exists where it is and as
it is, apart from the lists of what the node owns and carries and from the part a method plays
(`Program.extends_perform`). What a run of operations preserves is shown for one operation and
carried along by `Program.Admits.preserves`.
-/

set_option autoImplicit false

namespace Liveset

/-- One call of the builder. -/
inductive Operation where
  | type (d : TypeDefinition)
  | specification (s : TypeSpecification)
  | typeReference (fullName : String)
  | genericParameter (owner : GenericOwner) (name : String)
  | method (d : MethodDefinition)
  | methodReference (r : MethodReference)
  | methodInstance (element : MethodId) (arguments : List TypeId)
  | parameter (method : MethodId) (name : String) (type : TypeId)
  | field (d : FieldDefinition)
  | fieldReference (r : FieldReference)
  | property (d : Property)
  | event (d : Event)
  | attribute (owner : Entity) (a : Attribute)
  | programAttribute (a : Attribute)
  | entryPoint (e : Entity)

namespace Program

/-- Carry out one operation. -/
def perform (p : Program) : Operation → Program
  | .type d => (p.addType d).2
  | .specification s => (p.addSpecification s).2
  | .typeReference fullName => (p.addTypeReference fullName).2
  | .genericParameter owner name => (p.addGenericParameter owner name).2.2
  | .method d => (p.addMethod d).2
  | .methodReference r => (p.addMethodReference r).2
  | .methodInstance element arguments => (p.addMethodInstance element arguments).2
  | .parameter method name type => (p.addParameter method name type).2
  | .field d => (p.addField d).2
  | .fieldReference r => (p.addFieldReference r).2
  | .property d => (p.addProperty d).2
  | .event d => (p.addEvent d).2
  | .attribute owner a => (p.addAttribute owner a).2
  | .programAttribute a => (p.addProgramAttribute a).2
  | .entryPoint e => p.addEntryPoint e

/-- Carry out operations one after the other. -/
def build (p : Program) (operations : List Operation) : Program := operations.foldl perform p

/-- Each operation is allowed in the program that the ones before it have led to. -/
def Admits (allowed : Program → Operation → Prop) (p : Program) : List Operation → Prop
  | [] => True
  | operation :: rest => allowed p operation ∧ Admits allowed (p.perform operation) rest

/-- What every allowed operation preserves holds at the end of a run of allowed operations. -/
theorem Admits.preserves {allowed : Program → Operation → Prop} (holds : Program → Prop)
    (step : ∀ p operation, holds p → allowed p operation → holds (p.perform operation))
    {p : Program} {operations : List Operation} (start : holds p)
    (admitted : p.Admits allowed operations) : holds (p.build operations) := by
  induction operations generalizing p with
  | nil => exact start
  | cons operation rest ih => exact ih (step p operation start admitted.1) admitted.2

/-! ## Views of an arena -/

/-- A change that a view of the nodes does not show. -/
theorem map_toList_modify {α β : Type} {view : α → β} {f : α → α}
    (same : ∀ node, view (f node) = view node) (arena : Array α) (i : Nat) :
    (arena.modify i f).toList.map view = arena.toList.map view := by
  refine List.ext_getElem? fun j => ?_
  simp only [Array.toList_modify, List.getElem?_map, List.getElem?_modify]
  cases arena.toList[j]? with
  | none => split <;> rfl
  | some node => split <;> simp [same]

theorem flatMap_modify {α β : Type} {view : α → List β} {f : α → α}
    (same : ∀ node, view (f node) = view node) (arena : Array α) (i : Nat) :
    (arena.modify i f).toList.flatMap view = arena.toList.flatMap view := by
  rw [List.flatMap_def, List.flatMap_def, map_toList_modify same]

end Program

/-! ## Outlines -/

/-- The node without the lists of what it owns and carries and without the part it plays. -/
def MethodNode.outline : MethodNode → MethodNode
  | .definition d => .definition { d with
      parameters := [], genericParameters := [], attributes := [], semantics := .none }
  | node => node

/-- The node without its attributes. -/
def FieldNode.outline : FieldNode → FieldNode
  | .definition d => .definition { d with attributes := [] }
  | node => node

/-- The property without its attributes. -/
def Property.outline (d : Property) : Property := { d with attributes := [] }

/-- The event without its attributes. -/
def Event.outline (d : Event) : Event := { d with attributes := [] }

/-- The parameter without its attributes. -/
def Parameter.outline (d : Parameter) : Parameter := { d with attributes := [] }

/-- The generic parameter without its attributes. -/
def GenericParameter.outline (d : GenericParameter) : GenericParameter :=
  { d with attributes := [] }

/-- Every node of an arena is still there under its handle, with the same outline. -/
def Retains {α β : Type} (outline : α → β) (old new : Array α) : Prop :=
  ∀ (i : Nat) (node : α), old[i]? = some node → new[i]?.map outline = some (outline node)

namespace Retains

variable {α β : Type} {outline : α → β} {old mid new : Array α}

theorem refl (outline : α → β) (old : Array α) : Retains outline old old := by
  intro i node found
  rw [found]
  rfl

theorem trans (first : Retains outline old mid) (second : Retains outline mid new) :
    Retains outline old new := by
  intro i node found
  obtain ⟨next, there, same⟩ := Option.map_eq_some_iff.1 (first i node found)
  rw [second i next there, same]

theorem push (outline : α → β) (old : Array α) (node : α) :
    Retains outline old (old.push node) := by
  intro i kept found
  have inside := (Array.getElem?_eq_some_iff.1 found).1
  rw [Array.getElem?_push, if_neg (by omega), found]
  rfl

theorem modify {f : α → α} (same : ∀ node, outline (f node) = outline node) (old : Array α)
    (i : Nat) : Retains outline old (old.modify i f) := by
  intro j node found
  rw [Array.getElem?_modify, found]
  split <;> simp [same]

theorem size_le (h : Retains outline old new) : old.size ≤ new.size := by
  refine Nat.le_of_not_lt fun inside => ?_
  have kept := h new.size old[new.size] (by simp)
  simp at kept

end Retains

namespace Program

/-- Every node of `p` is still there in `q` under its handle, with the same outline. -/
structure Extends (p q : Program) : Prop where
  types : Retains TypeNode.outline p.types q.types
  methods : Retains MethodNode.outline p.methods q.methods
  fields : Retains FieldNode.outline p.fields q.fields
  properties : Retains Property.outline p.properties q.properties
  events : Retains Event.outline p.events q.events
  parameters : Retains Parameter.outline p.parameters q.parameters
  genericParameters : Retains GenericParameter.outline p.genericParameters q.genericParameters
  attributes : Retains id p.attributes q.attributes
  programAttributes : p.programAttributes <+: q.programAttributes
  entryPoints : p.entryPoints <+: q.entryPoints

theorem Extends.refl (p : Program) : p.Extends p := by
  constructor
  case programAttributes | entryPoints => exact List.prefix_rfl
  all_goals exact Retains.refl _ _

theorem Extends.trans {p q r : Program} (first : p.Extends q) (second : q.Extends r) :
    p.Extends r where
  types := first.types.trans second.types
  methods := first.methods.trans second.methods
  fields := first.fields.trans second.fields
  properties := first.properties.trans second.properties
  events := first.events.trans second.events
  parameters := first.parameters.trans second.parameters
  genericParameters := first.genericParameters.trans second.genericParameters
  attributes := first.attributes.trans second.attributes
  programAttributes := first.programAttributes.trans second.programAttributes
  entryPoints := first.entryPoints.trans second.entryPoints

/-! ## What each operation leaves alone -/

theorem extends_modifyType (p : Program) (id : TypeId) {f : TypeDefinition → TypeDefinition}
    (same : ∀ d, (TypeNode.definition (f d)).outline = (TypeNode.definition d).outline) :
    p.Extends (p.modifyType id f) :=
  { Extends.refl p with
    types := Retains.modify (fun node => by cases node <;> simp [same]) p.types id.index }

theorem extends_modifyMethod (p : Program) (id : MethodId) {f : MethodDefinition → MethodDefinition}
    (same : ∀ d, (MethodNode.definition (f d)).outline = (MethodNode.definition d).outline) :
    p.Extends (p.modifyMethod id f) :=
  { Extends.refl p with
    methods := Retains.modify (fun node => by cases node <;> simp [same]) p.methods id.index }

theorem extends_tagAccessors (p : Program) (slots : List (Option MethodId × Semantics)) :
    p.Extends (p.tagAccessors slots) := by
  induction slots generalizing p with
  | nil => exact Extends.refl p
  | cons slot rest ih =>
    refine Extends.trans ?_ (ih (p.tagAccessor slot))
    unfold tagAccessor
    split
    · exact Extends.refl p
    · exact p.extends_modifyMethod _ fun _ => rfl

theorem extends_listGenericParameter (p : Program) (owner : GenericOwner)
    (id : GenericParameterId) :
    p.Extends (p.listGenericParameter owner id) := by
  cases owner with
  | type t => exact p.extends_modifyType t fun _ => rfl
  | method m => exact p.extends_modifyMethod m fun _ => rfl

theorem extends_listAttribute (p : Program) (owner : Entity) (id : AttributeId) :
    p.Extends (p.listAttribute owner id) := by
  cases owner with
  | type t => exact p.extends_modifyType t fun _ => rfl
  | method m => exact p.extends_modifyMethod m fun _ => rfl
  | field f =>
    exact { Extends.refl p with
      fields := Retains.modify (fun node => by cases node <;> rfl) p.fields f.index }
  | property d =>
    exact { Extends.refl p with
      properties := Retains.modify (fun _ => by rfl) p.properties d.index }
  | event d =>
    exact { Extends.refl p with events := Retains.modify (fun _ => by rfl) p.events d.index }
  | parameter d =>
    exact { Extends.refl p with
      parameters := Retains.modify (fun _ => by rfl) p.parameters d.index }
  | genericParameter d =>
    exact { Extends.refl p with
      genericParameters := Retains.modify (fun _ => by rfl) p.genericParameters d.index }
  | «attribute» | foreignClass | foreignField | foreignMethod => exact Extends.refl p

/-- An operation leaves every node that exists under its handle and, lists and parts aside, as it
is. -/
theorem extends_perform (p : Program) (operation : Operation) :
    p.Extends (p.perform operation) := by
  cases operation with
  | type d => exact { Extends.refl p with types := Retains.push _ _ _ }
  | specification s => exact { Extends.refl p with types := Retains.push _ _ _ }
  | typeReference fullName => exact { Extends.refl p with types := Retains.push _ _ _ }
  | genericParameter owner name =>
    let declared := { p with genericParameters := p.genericParameters.push { owner, name } }
    have first : p.Extends declared :=
      { Extends.refl p with genericParameters := Retains.push _ _ _ }
    have second := declared.extends_listGenericParameter owner ⟨p.genericParameters.size⟩
    exact (first.trans second).trans { Extends.refl _ with types := Retains.push _ _ _ }
  | method d =>
    have first : p.Extends (p.pushMethod (.definition d)).2 :=
      { Extends.refl p with methods := Retains.push _ _ _ }
    exact first.trans (extends_modifyType _ _ fun _ => rfl)
  | methodReference r => exact { Extends.refl p with methods := Retains.push _ _ _ }
  | methodInstance element arguments =>
    exact { Extends.refl p with methods := Retains.push _ _ _ }
  | parameter method name type =>
    let added : Parameter := { owner := .method method, name, parameterType := type }
    have first : p.Extends { p with parameters := p.parameters.push added } :=
      { Extends.refl p with parameters := Retains.push _ _ _ }
    exact first.trans (extends_modifyMethod _ _ fun _ => rfl)
  | field d =>
    have first : p.Extends (p.pushField (.definition d)).2 :=
      { Extends.refl p with fields := Retains.push _ _ _ }
    exact first.trans (extends_modifyType _ _ fun _ => rfl)
  | fieldReference r => exact { Extends.refl p with fields := Retains.push _ _ _ }
  | property d =>
    have first : p.Extends { p with properties := p.properties.push d } :=
      { Extends.refl p with properties := Retains.push _ _ _ }
    refine Extends.trans ?_ (extends_tagAccessors _ _)
    exact first.trans (extends_modifyType _ _ fun _ => rfl)
  | event d =>
    have first : p.Extends { p with events := p.events.push d } :=
      { Extends.refl p with events := Retains.push _ _ _ }
    refine Extends.trans ?_ (extends_tagAccessors _ _)
    exact first.trans (extends_modifyType _ _ fun _ => rfl)
  | «attribute» owner a =>
    have first : p.Extends (p.pushAttribute a).2 :=
      { Extends.refl p with attributes := Retains.push _ _ _ }
    exact first.trans (extends_listAttribute _ _ _)
  | programAttribute a =>
    exact { Extends.refl p with
      attributes := Retains.push _ _ _, programAttributes := List.prefix_append _ _ }
  | entryPoint e =>
    show p.Extends (p.addEntryPoint e)
    unfold addEntryPoint
    split
    · exact Extends.refl p
    · exact { Extends.refl p with entryPoints := List.prefix_append _ _ }

end Program

end Liveset
