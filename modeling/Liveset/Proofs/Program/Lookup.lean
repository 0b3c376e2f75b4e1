import Liveset.Program.Description
import Liveset.Proofs.Program.Instances
import Liveset.Proofs.Program.RoundTrip

/-!
# Printed names can be looked up

A qualified name is split at the first `::`. If the name of the type has no `::` in it and does not
end in a colon, the first one is that between type and member, whatever the member is called
(`splitQualified?_append`). A colon at the end of the type would complete a separator one place too
early.

The members that a definition lists bear names (`memberName?`), and a qualified name selects those
that bear the name behind the type (`lookup_qualified`). Fields, properties and events are described
by qualified names, so what is printed of them finds them again.

The search for members asks every method of the type for its name. A method whose chain of instances
does not end keeps it from returning, whatever it searches for (`lookup_selfInstance`).

Main statement: printed names find types, and exactly where no such method is listed also fields,
properties, events and methods (`lookup_describe`).
-/

set_option autoImplicit false

namespace Liveset

/-- The methods, fields, properties and events that a definition lists. -/
def TypeDefinition.listed (d : TypeDefinition) : List Entity :=
  d.methods.map .method ++ d.fields.map .field ++ d.properties.map .property ++ d.events.map .event

namespace Program

variable {p : Program}

/-! ## The first separator -/

theorem splitQualified?_eq_none {chars : List Char} (plain : ¬ [':', ':'] <:+: chars) :
    splitQualified? chars = none := by
  fun_induction splitQualified? chars with
  | case1 rest => exact absurd (List.prefix_append [':', ':'] rest).isInfix plain
  | case2 c rest _ ih =>
    have below : ¬ [':', ':'] <:+: rest := fun inside => plain (List.infix_cons inside)
    rw [ih below]
    rfl
  | case3 => rfl

/-- A colon behind a text completes a separator only if the text ends in a colon. -/
theorem not_infix_concat {chars : List Char} (plain : ¬ [':', ':'] <:+: chars)
    (ended : chars.getLast? ≠ some ':') : ¬ [':', ':'] <:+: chars ++ [':'] := by
  intro inside
  rcases List.infix_concat_iff.1 inside with ending | within
  · rcases List.suffix_concat_iff.1 ending with none | ⟨start, split, ending⟩
    · cases none
    · have halves : [':'] ++ [':'] = start ++ [':'] := split
      obtain ⟨rfl, -⟩ := List.append_inj' halves rfl
      exact ended (List.singleton_suffix_iff_getLast?_eq_some.1 ending)
  · exact plain within

/-- The first separator is the one at which the text was put together. -/
theorem splitQualified?_append {before : List Char} (plain : ¬ [':', ':'] <:+: before ++ [':'])
    (after : List Char) :
    splitQualified? (before ++ ':' :: ':' :: after) = some (before, after) := by
  induction before with
  | nil => rfl
  | cons c rest ih =>
    have below : ¬ [':', ':'] <:+: rest ++ [':'] := fun inside => plain (List.infix_cons inside)
    rw [List.cons_append, splitQualified?, ih below]
    · rfl
    · -- Two colons right here would be a separator inside, or one that the next colon completes.
      rintro later rfl early
      apply plain
      cases rest with
      | nil => exact List.infix_refl _
      | cons second rest =>
        cases early
        exact (List.prefix_append [':', ':'] (rest ++ [':'])).isInfix

/-! ## The members of a type -/

/-- The name that a member bears: any method, but of the fields only definitions. -/
def memberName? (p : Program) : Entity → Option String
  | .method id => p.methodName? id
  | .field id => (p.fieldDefinition? id).map (·.name)
  | .property id => (p.property? id).map (·.name)
  | .event id => (p.event? id).map (·.name)
  | _ => none

theorem any_eq_decide {α : Type} (found : Option α) (nameOf : α → String) (name : String) :
    found.any (nameOf · = name) = decide (found.map nameOf = some name) := by
  cases found <;> simp

theorem membersNamed_eq_filter (p : Program) (d : TypeDefinition) (name : String) :
    p.membersNamed d name = d.listed.filter (p.memberName? · = some name) := by
  simp only [membersNamed, TypeDefinition.listed, List.filter_append, List.filter_map,
    any_eq_decide]
  rfl

/-- A qualified name selects the members of the type that bear the name, in the order in which they
are listed. The search returns unless a method of the type leads into an endless chain. -/
theorem lookup_qualified {t : TypeId} {d : TypeDefinition} (defined : p.typeDefinition? t = some d)
    (registered : p.findType? (p.fullName t) = some t)
    (plain : ¬ [':', ':'] <:+: (p.fullName t).toList)
    (ended : (p.fullName t).toList.getLast? ≠ some ':') (name : String) :
    p.lookup (p.fullName t ++ "::" ++ name) =
      if d.methods.any p.isEndless then none
      else some (d.listed.filter (p.memberName? · = some name)) := by
  have chars : (p.fullName t ++ "::" ++ name).toList =
      (p.fullName t).toList ++ ':' :: ':' :: name.toList := by
    rw [String.toList_append, String.toList_append, List.append_assoc]
    rfl
  rw [lookup, chars, splitQualified?_append (not_infix_concat plain ended)]
  simp only [String.ofList_toList, registered, Option.bind_some, defined, membersNamed_eq_filter]

/-- A text finds an entity: it is printed, the search for it returns, and the entity is among what
the search gives. -/
def Finds (p : Program) (text : Option String) (e : Entity) : Prop :=
  ∃ found, text.bind p.lookup = some found ∧ e ∈ found

/-- The members of a type are found by their names. Fields, properties and events that the type
declares are found by what is printed of them, methods by the name behind the type; and a name finds
all the members that bear it, and nothing else. -/
structure FindsMembers (p : Program) (t : TypeId) (d : TypeDefinition) : Prop where
  field : ∀ id ∈ d.fields, ∀ f, p.fieldDefinition? id = some f → f.declaringType = t →
    p.Finds (p.describe (.field id)) (.field id)
  property : ∀ id ∈ d.properties, ∀ q, p.property? id = some q → q.declaringType = t →
    p.Finds (p.describe (.property id)) (.property id)
  event : ∀ id ∈ d.events, ∀ v, p.event? id = some v → v.declaringType = t →
    p.Finds (p.describe (.event id)) (.event id)
  method : ∀ id ∈ d.methods, ∀ name, p.methodName? id = some name →
    p.Finds (some (p.fullName t ++ "::" ++ name)) (.method id)
  named : ∀ name, p.lookup (p.fullName t ++ "::" ++ name) =
    some (d.listed.filter (p.memberName? · = some name))

theorem findsMembers_of_named {t : TypeId} {d : TypeDefinition}
    (named : ∀ name, p.lookup (p.fullName t ++ "::" ++ name) =
      some (d.listed.filter (p.memberName? · = some name))) : p.FindsMembers t d := by
  have found (e : Entity) (name : String) (listed : e ∈ d.listed)
      (bears : p.memberName? e = some name) :
      p.Finds (some (p.fullName t ++ "::" ++ name)) e := by
    refine ⟨_, named name, ?_⟩
    rw [List.mem_filter]
    exact ⟨listed, decide_eq_true bears⟩
  have printed (e : Entity) (name : String) (listed : e ∈ d.listed)
      (bears : p.memberName? e = some name)
      (described : p.describe e = some (p.qualifiedName t name)) : p.Finds (p.describe e) e := by
    rw [described]
    exact found e name listed bears
  constructor
  case field =>
    rintro id listed f defined rfl
    apply printed (.field id) f.name
    · simp [TypeDefinition.listed, listed]
    · simp [memberName?, defined]
    · simp [describe, captionReturns, caption, field?_of_fieldDefinition? defined]
  case property =>
    rintro id listed q present rfl
    apply printed (.property id) q.name
    · simp [TypeDefinition.listed, listed]
    · simp [memberName?, present]
    · simp [describe, captionReturns, caption, present]
  case event =>
    rintro id listed v present rfl
    apply printed (.event id) v.name
    · simp [TypeDefinition.listed, listed]
    · simp [memberName?, present]
    · simp [describe, captionReturns, caption, present]
  case method =>
    intro id listed name called
    apply found (.method id) name
    · simp [TypeDefinition.listed, listed]
    · exact called
  case named => exact named

/-- Printed names can be looked up again, as far as the search returns. A type definition that is
registered under its full name is found by it, if there is no separator in the name. If the name
does not end in a colon either, its members are found by theirs exactly if none of its methods leads
into an endless chain of instances. No more is asked of the program. -/
theorem lookup_describe {t : TypeId} {d : TypeDefinition} (defined : p.typeDefinition? t = some d)
    (registered : p.findType? (p.fullName t) = some t)
    (plain : ¬ [':', ':'] <:+: (p.fullName t).toList) :
    (p.describe (.type t)).bind p.lookup = some [.type t] ∧
      ((p.fullName t).toList.getLast? ≠ some ':' →
        (p.FindsMembers t d ↔ ∀ id ∈ d.methods, ¬ p.Endless id)) := by
  constructor
  · show p.lookup (p.fullName t) = some [.type t]
    rw [lookup, splitQualified?_eq_none plain, registered]
    rfl
  · intro ended
    have search := lookup_qualified defined registered plain ended
    constructor
    · intro finds id listed endless
      have stuck : d.methods.any p.isEndless :=
        List.any_eq_true.2 ⟨id, listed, isEndless_iff.2 endless⟩
      have returned := (search "").symm.trans (finds.named "")
      rw [if_pos stuck] at returned
      cases returned
    · intro finite
      have goesOn : d.methods.any p.isEndless = false :=
        List.any_eq_false.2 fun id listed => isEndless_iff.not.2 (finite id listed)
      refine findsMembers_of_named fun name => ?_
      rw [search, goesOn]
      rfl

/-- A nested type with single colons in its name. Separators stand in the names of its members, in
front of them, and one member begins with a colon. Three methods and an event share a name; one of
the methods is a reference and another an instance of it. The second field is a reference, which
bears no name here. -/
def colons : Program where
  types := #[
    .definition { namespaceName := "App:x", name := "Shelf`1" },
    .definition {
      name := "Slot:a", declaringType := some ⟨0⟩, methods := [⟨2⟩, ⟨0⟩, ⟨1⟩], fields := [⟨0⟩, ⟨1⟩],
      properties := [⟨0⟩], events := [⟨0⟩] },
    .reference "System.Int32"]
  methods := #[
    .definition { declaringType := ⟨1⟩, name := "::Put", returnType := ⟨2⟩ },
    .reference { declaringType := ⟨0⟩, name := "::Put", returnType := ⟨2⟩ },
    .instance ⟨1⟩ [⟨2⟩]]
  fields := #[
    .definition { declaringType := ⟨1⟩, name := ":size", fieldType := ⟨2⟩ },
    .reference { declaringType := ⟨1⟩, name := ":size", fieldType := ⟨2⟩ }]
  properties := #[{ declaringType := ⟨1⟩, name := "a::b", propertyType := ⟨2⟩ }]
  events := #[{ declaringType := ⟨1⟩, name := "::Put", eventType := ⟨2⟩ }]

/-- The nested type, its field and its property are found by what is printed of them, and the four
members of one name together. -/
theorem lookup_describe_colons :
    let p := colons.rebuild
    parse? p.document = some p ∧ p.fullName ⟨1⟩ = "App:x.Shelf`1/Slot:a" ∧
      p.findType? (p.fullName ⟨1⟩) = some ⟨1⟩ ∧ ¬ [':', ':'] <:+: (p.fullName ⟨1⟩).toList ∧
      p.lookup "App:x.Shelf`1/Slot:a" = some [.type ⟨1⟩] ∧
      p.describe (.field ⟨0⟩) = some "App:x.Shelf`1/Slot:a:::size" ∧
      p.Finds (p.describe (.field ⟨0⟩)) (.field ⟨0⟩) ∧
      p.Finds (p.describe (.property ⟨0⟩)) (.property ⟨0⟩) ∧
      p.lookup "App:x.Shelf`1/Slot:a::::Put" =
        some [.method ⟨2⟩, .method ⟨0⟩, .method ⟨1⟩, .event ⟨0⟩] := by
  intro p
  have read : ofForm? colons.form = some colons := rfl
  have loaded : parse? p.document = some p := parse?_document_rebuild read (by decide +kernel)
  have name : p.fullName ⟨1⟩ = "App:x.Shelf`1/Slot:a" := by decide +kernel
  have registered : p.findType? (p.fullName ⟨1⟩) = some ⟨1⟩ := by decide +kernel
  have plain : ¬ [':', ':'] <:+: (p.fullName ⟨1⟩).toList := by decide +kernel
  obtain ⟨type, members⟩ := lookup_describe rfl registered plain
  have finite : ∀ id ∈ [⟨2⟩, ⟨0⟩, ⟨1⟩], ¬ p.isEndless id := by decide +kernel
  have found := (members (by decide +kernel)).2 fun id listed =>
    isEndless_iff.not.1 (finite id listed)
  refine ⟨loaded, name, registered, plain, ?_, ?_, ?_, ?_, ?_⟩
  · rw [← name]
    exact type
  · decide +kernel
  · exact found.field ⟨0⟩ List.mem_cons_self _ rfl rfl
  · exact found.property ⟨0⟩ List.mem_cons_self _ rfl rfl
  · have all := found.named "::Put"
    rw [name] at all
    exact all

/-- A type that lists a field, and a method that is an instance of itself. -/
def selfInstance : Program where
  types := #[
    .definition { namespaceName := "App", name := "T", methods := [⟨0⟩], fields := [⟨0⟩] },
    .definition { namespaceName := "System", name := "Int32" }]
  methods := #[.instance ⟨0⟩ []]
  fields := #[.definition { declaringType := ⟨0⟩, name := "f", fieldType := ⟨1⟩ }]

/-- The search for what is printed of the field does not return, though the name of its type has no
colon: the method of the type is asked for its name. -/
theorem lookup_selfInstance :
    let p := selfInstance.rebuild
    parse? p.document = some p ∧ p.findType? (p.fullName ⟨0⟩) = some ⟨0⟩ ∧
      ':' ∉ (p.fullName ⟨0⟩).toList ∧ (p.typeDefinition? ⟨0⟩).any (⟨0⟩ ∈ ·.fields) ∧
      (p.fieldDefinition? ⟨0⟩).any (·.declaringType = ⟨0⟩) ∧
      p.describe (.field ⟨0⟩) = some "App.T::f" ∧ p.lookup "App.T::f" = none := by
  intro p
  have read : ofForm? selfInstance.form = some selfInstance := rfl
  have loaded : parse? p.document = some p := parse?_document_rebuild read (by decide +kernel)
  refine ⟨loaded, ?_, ?_, ?_, ?_, ?_, ?_⟩
  all_goals decide +kernel

end Program

end Liveset
