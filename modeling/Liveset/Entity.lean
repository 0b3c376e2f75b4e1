import Std.Data.TreeSet

/-!
# Entities

A program graph keeps each kind of node in an arena of its own, and a handle is a position in one
arena. Classes loaded from outside the program have handles too. An `Entity` is a handle together
with its kind, so one set can hold nodes of every kind.

What this module delivers:

* one handle type per arena, so a method handle cannot be used where a type handle is meant;
* `Entity`, its `kind`, and its `label` (`t5`, `m1`, `j0.f1`), the short spelling used in answers;
* a linear order on entities and on type handles, for the ordered sets a pass keeps;
* `KindTally`, a counter per entity kind.
-/

set_option autoImplicit false

namespace Liveset

/-! ## Handles -/

/-- Handle of a type node: a definition, specification, generic parameter or reference. -/
structure TypeId where
  index : Nat
deriving DecidableEq, Inhabited, Repr

/-- Handle of a method node: a definition, generic instance or reference. -/
structure MethodId where
  index : Nat
deriving DecidableEq, Inhabited, Repr

/-- Handle of a field node: a definition or reference. -/
structure FieldId where
  index : Nat
deriving DecidableEq, Inhabited, Repr

/-- Handle of a property. -/
structure PropertyId where
  index : Nat
deriving DecidableEq, Inhabited, Repr

/-- Handle of an event. -/
structure EventId where
  index : Nat
deriving DecidableEq, Inhabited, Repr

/-- Handle of a parameter of a method or property. -/
structure ParameterId where
  index : Nat
deriving DecidableEq, Inhabited, Repr

/-- Handle of a generic parameter of a type or method. -/
structure GenericParameterId where
  index : Nat
deriving DecidableEq, Inhabited, Repr

/-- Handle of an attribute. -/
structure AttributeId where
  index : Nat
deriving DecidableEq, Inhabited, Repr

/-- Handle of a class loaded from outside the program. -/
structure ClassId where
  index : Nat
deriving DecidableEq, Inhabited, Repr

/-! ## Entities and their kinds -/

/-- Anything a pass can reach. Members of a foreign class are addressed by their class and their
position in its member list. -/
inductive Entity where
  | type (id : TypeId)
  | method (id : MethodId)
  | field (id : FieldId)
  | property (id : PropertyId)
  | event (id : EventId)
  | parameter (id : ParameterId)
  | genericParameter (id : GenericParameterId)
  | attribute (id : AttributeId)
  | foreignClass (id : ClassId)
  | foreignField (owner : ClassId) (position : Nat)
  | foreignMethod (owner : ClassId) (position : Nat)
deriving DecidableEq, Inhabited, Repr

/-- The category of an entity. -/
inductive EntityKind where
  | type
  | method
  | field
  | property
  | event
  | parameter
  | genericParameter
  | attribute
  | foreignClass
  | foreignField
  | foreignMethod
deriving DecidableEq, Inhabited, Repr

/-- The category of `e`. -/
def Entity.kind : Entity → EntityKind
  | .type _ => .type
  | .method _ => .method
  | .field _ => .field
  | .property _ => .property
  | .event _ => .event
  | .parameter _ => .parameter
  | .genericParameter _ => .genericParameter
  | .attribute _ => .attribute
  | .foreignClass _ => .foreignClass
  | .foreignField _ _ => .foreignField
  | .foreignMethod _ _ => .foreignMethod

/-- Does the entity live outside the program? -/
def Entity.isForeign : Entity → Bool
  | .foreignClass _ | .foreignField _ _ | .foreignMethod _ _ => true
  | _ => false

namespace EntityKind

/-- Every kind, in the order in which counters are listed. -/
def all : List EntityKind :=
  [.type, .method, .field, .property, .event, .parameter, .genericParameter, .attribute,
    .foreignClass, .foreignField, .foreignMethod]

/-- The spelling of a kind in written form. -/
def name : EntityKind → String
  | .type => "type"
  | .method => "method"
  | .field => "field"
  | .property => "property"
  | .event => "event"
  | .parameter => "parameter"
  | .genericParameter => "generic_parameter"
  | .attribute => "attribute"
  | .foreignClass => "foreign_class"
  | .foreignField => "foreign_field"
  | .foreignMethod => "foreign_method"

/-- Position in the list of all kinds. -/
def rank : EntityKind → Nat
  | .type => 0
  | .method => 1
  | .field => 2
  | .property => 3
  | .event => 4
  | .parameter => 5
  | .genericParameter => 6
  | .attribute => 7
  | .foreignClass => 8
  | .foreignField => 9
  | .foreignMethod => 10

end EntityKind

/-- A member of a type, as it is offered to an inclusion test. -/
inductive Member where
  | method (id : MethodId)
  | field (id : FieldId)
  | property (id : PropertyId)
  | event (id : EventId)
deriving DecidableEq, Inhabited, Repr

/-- The entity a member is. -/
def Member.entity : Member → Entity
  | .method id => .method id
  | .field id => .field id
  | .property id => .property id
  | .event id => .event id

/-- The member an entity is, if it is one. -/
def Entity.member? : Entity → Option Member
  | .method id => some (.method id)
  | .field id => some (.field id)
  | .property id => some (.property id)
  | .event id => some (.event id)
  | _ => none

/-! ## Labels -/

/-- Short spelling of a type handle. -/
def TypeId.label (id : TypeId) : String := "t" ++ toString id.index

/-- Short spelling of a method handle. -/
def MethodId.label (id : MethodId) : String := "m" ++ toString id.index

/-- Short spelling of a field handle. -/
def FieldId.label (id : FieldId) : String := "f" ++ toString id.index

/-- Short spelling of a property handle. -/
def PropertyId.label (id : PropertyId) : String := "p" ++ toString id.index

/-- Short spelling of an event handle. -/
def EventId.label (id : EventId) : String := "e" ++ toString id.index

/-- Short spelling of a parameter handle. -/
def ParameterId.label (id : ParameterId) : String := "a" ++ toString id.index

/-- Short spelling of a generic parameter handle. -/
def GenericParameterId.label (id : GenericParameterId) : String := "g" ++ toString id.index

/-- Short spelling of an attribute handle. -/
def AttributeId.label (id : AttributeId) : String := "c" ++ toString id.index

/-- Short spelling of a foreign class handle. -/
def ClassId.label (id : ClassId) : String := "j" ++ toString id.index

/-- Short spelling of an entity; the letter tells the kind. -/
def Entity.label : Entity → String
  | .type id => id.label
  | .method id => id.label
  | .field id => id.label
  | .property id => id.label
  | .event id => id.label
  | .parameter id => id.label
  | .genericParameter id => id.label
  | .attribute id => id.label
  | .foreignClass id => id.label
  | .foreignField owner position => owner.label ++ ".f" ++ toString position
  | .foreignMethod owner position => owner.label ++ ".m" ++ toString position

/-! ## Orders -/

instance : Ord TypeId := ⟨compareOn TypeId.index⟩

instance : Std.TransOrd TypeId :=
  inferInstanceAs (Std.TransCmp (compareOn TypeId.index))

instance : Std.LawfulEqOrd TypeId where
  eq_of_compare {a b} h := by
    have index_eq : a.index = b.index := Nat.compare_eq_eq.1 h
    cases a; cases b; cases index_eq; rfl
  compare_self {a} := Nat.compare_eq_eq.2 (rfl : a.index = a.index)

namespace Entity

/-- The handle inside an entity; for a foreign member, the handle of its class. -/
def handle : Entity → Nat
  | .type id => id.index
  | .method id => id.index
  | .field id => id.index
  | .property id => id.index
  | .event id => id.index
  | .parameter id => id.index
  | .genericParameter id => id.index
  | .attribute id => id.index
  | .foreignClass id => id.index
  | .foreignField owner _ => owner.index
  | .foreignMethod owner _ => owner.index

/-- The position of a foreign member in its class, zero for everything else. -/
def position : Entity → Nat
  | .foreignField _ position => position
  | .foreignMethod _ position => position
  | _ => 0

/-- Kind first, then handle, then member position. -/
def order : Entity → Entity → Ordering :=
  compareLex (compareOn fun e => e.kind.rank)
    (compareLex (compareOn handle) (compareOn position))

instance : Ord Entity := ⟨order⟩

instance : Std.TransOrd Entity :=
  inferInstanceAs (Std.TransCmp (compareLex (compareOn fun e : Entity => e.kind.rank)
    (compareLex (compareOn handle) (compareOn position))))

/-- Kind, handle and member position determine an entity. -/
theorem eq_of_order_eq {a b : Entity} (h : order a b = .eq) : a = b := by
  simp only [order, compareLex, compareOn, Ordering.then_eq_eq, Nat.compare_eq_eq] at h
  obtain ⟨kind_eq, handle_eq, position_eq⟩ := h
  rcases a with ⟨⟨i⟩⟩ | ⟨⟨i⟩⟩ | ⟨⟨i⟩⟩ | ⟨⟨i⟩⟩ | ⟨⟨i⟩⟩ | ⟨⟨i⟩⟩ | ⟨⟨i⟩⟩ | ⟨⟨i⟩⟩ | ⟨⟨i⟩⟩ | ⟨⟨i⟩, k⟩ |
    ⟨⟨i⟩, k⟩ <;>
  rcases b with ⟨⟨j⟩⟩ | ⟨⟨j⟩⟩ | ⟨⟨j⟩⟩ | ⟨⟨j⟩⟩ | ⟨⟨j⟩⟩ | ⟨⟨j⟩⟩ | ⟨⟨j⟩⟩ | ⟨⟨j⟩⟩ | ⟨⟨j⟩⟩ | ⟨⟨j⟩, l⟩ |
    ⟨⟨j⟩, l⟩ <;>
  simp_all [kind, EntityKind.rank, handle, position]

instance : Std.LawfulEqOrd Entity where
  eq_of_compare h := eq_of_order_eq h
  compare_self {a} := by
    change order a a = .eq
    simp only [order, compareLex, compareOn, Ordering.then_eq_eq, Nat.compare_eq_eq, and_self]

end Entity

/-! ## Counters -/

/-- A counter per entity kind. Kinds that never occurred have no entry. -/
structure KindTally where
  counts : List (EntityKind × Nat) := []
deriving DecidableEq, Inhabited, Repr

namespace KindTally

/-- The count of `kind`. -/
def get (tally : KindTally) (kind : EntityKind) : Nat :=
  (tally.counts.lookup kind).getD 0

/-- Add one to the entry of `kind`, which is made when it is missing. -/
def bumpEntries (kind : EntityKind) : List (EntityKind × Nat) → List (EntityKind × Nat)
  | [] => [(kind, 1)]
  | (k, n) :: rest => if kind = k then (k, n + 1) :: rest else (k, n) :: bumpEntries kind rest

/-- Count one more entity of `kind`. -/
def bump (tally : KindTally) (kind : EntityKind) : KindTally :=
  ⟨bumpEntries kind tally.counts⟩

/-- The sum over all kinds. -/
def total (tally : KindTally) : Nat :=
  tally.counts.foldl (fun total entry => total + entry.2) 0

/-- The kinds that occurred with their counts, in the order of `EntityKind.all`. -/
def entries (tally : KindTally) : List (EntityKind × Nat) :=
  EntityKind.all.filterMap fun kind => (tally.counts.lookup kind).map fun n => (kind, n)

end KindTally

end Liveset
