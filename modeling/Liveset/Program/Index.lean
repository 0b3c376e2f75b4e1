import Liveset.Program.Name

/-!
# Derived data of a program

Two things follow from the arenas and are recomputed when a program is loaded: the index of full
names, in which the first definition of a name wins, and the part that each method plays for a
property or event. Properties are looked at before events, and of two accessor slots that name one
method the later one counts.

What this module delivers: `Program.indexTypes`, `Program.tagAccessors` and `Program.rebuild`.
-/

set_option autoImplicit false

namespace Liveset.Program

/-- Change the type definition of a handle, if it is one. -/
def modifyType (p : Program) (id : TypeId) (f : TypeDefinition → TypeDefinition) : Program :=
  { p with types := p.types.modify id.index fun
      | .definition d => .definition (f d)
      | node => node }

/-- Change the method definition of a handle, if it is one. -/
def modifyMethod (p : Program) (id : MethodId) (f : MethodDefinition → MethodDefinition) :
    Program :=
  { p with methods := p.methods.modify id.index fun
      | .definition d => .definition (f d)
      | node => node }

/-- Change the field definition of a handle, if it is one. -/
def modifyField (p : Program) (id : FieldId) (f : FieldDefinition → FieldDefinition) : Program :=
  { p with fields := p.fields.modify id.index fun
      | .definition d => .definition (f d)
      | node => node }

/-- Register the type of a handle under its full name, if it is a definition. -/
def registerType (p : Program) (index : NameIndex) (id : TypeId) : NameIndex :=
  if (p.typeDefinition? id).isSome then index.register (p.fullName id) id else index

/-- The index of all type definitions, registered in the order of their handles. -/
def indexTypes (p : Program) : NameIndex :=
  (List.range p.types.size).foldl (fun index i => p.registerType index ⟨i⟩) {}

/-- Give one method the part that an accessor slot assigns to it. An empty slot does nothing. -/
def tagAccessor (p : Program) (slot : Option MethodId × Semantics) : Program :=
  match slot.1 with
  | none => p
  | some id => p.modifyMethod id fun d => { d with semantics := slot.2 }

/-- Fill in accessor slots one after the other. -/
def tagAccessors (p : Program) (slots : List (Option MethodId × Semantics)) : Program :=
  slots.foldl tagAccessor p

/-- The accessor slots of all properties and then of all events. -/
def accessorSlots (p : Program) : List (Option MethodId × Semantics) :=
  p.properties.toList.flatMap Property.accessors ++ p.events.toList.flatMap Event.accessors

/-- Recompute the derived data. -/
def rebuild (p : Program) : Program :=
  { p with index := p.indexTypes }.tagAccessors p.accessorSlots

end Liveset.Program
