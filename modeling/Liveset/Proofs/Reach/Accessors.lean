import Liveset.Proofs.Program.Upkeep
import Liveset.Proofs.Reach.Resolution
import Mathlib.Data.List.Nodup

/-!
# Accessors keep their properties and events

An accessor keeps the property or event it belongs to, never the other way round. The rule of a
method finds it in two steps: the part that the method plays says in which of the two lists of the
declaring type to look, and there the first entry that names the method is taken. The part is not
what a document says, but what loading recomputed from the slots of all properties and events
(`Tagged`).

Where a method is named by at most one slot (`NamedOnce`), the part is that of the slot which names
it (`semantics_of_property`, `semantics_of_event`), and the first entry that names the method is the
only one. So a reached accessor has its property or event reached
(`keepsAccessorOwners_of_succeeds`).
-/

set_option autoImplicit false

namespace Liveset

/-! ## Slots -/

/-- The methods that accessor slots name, each as often as it is named. -/
def namedMethods (slots : List (Option MethodId × Semantics)) : List MethodId :=
  slots.filterMap (·.1)

theorem mem_namedMethods {slots : List (Option MethodId × Semantics)} {m : MethodId} :
    m ∈ namedMethods slots ↔ ∃ part, (some m, part) ∈ slots := by
  rw [namedMethods, List.mem_filterMap]
  constructor
  · rintro ⟨⟨_, part⟩, listed, rfl⟩
    exact ⟨part, listed⟩
  · rintro ⟨part, listed⟩
    exact ⟨_, listed, rfl⟩

/-- A slot of one entry of an arena is a slot of the arena. -/
theorem mem_namedMethods_flatMap {α : Type} {slots : α → List (Option MethodId × Semantics)}
    {arena : Array α} {i : Nat} {e : α} (found : arena[i]? = some e) {m : MethodId}
    (named : m ∈ namedMethods (slots e)) : m ∈ namedMethods (arena.toList.flatMap slots) := by
  obtain ⟨part, slot⟩ := mem_namedMethods.1 named
  have member : e ∈ arena.toList := Array.mem_toList_iff.2 (Array.mem_of_getElem? found)
  exact mem_namedMethods.2 ⟨part, List.mem_flatMap.2 ⟨e, member, slot⟩⟩

/-- If a method is named once at most over an arena, one entry at most names it. -/
theorem eq_of_count_le_one {α : Type} {slots : α → List (Option MethodId × Semantics)}
    {arena : Array α} {m : MethodId}
    (once : (namedMethods (arena.toList.flatMap slots)).count m ≤ 1) {i j : Nat} {e e' : α}
    (found : arena[i]? = some e) (found' : arena[j]? = some e') (named : m ∈ namedMethods (slots e))
    (named' : m ∈ namedMethods (slots e')) : i = j := by
  -- Other methods may be named more often, so only the occurrences of this one are looked at.
  have nodup : ((namedMethods (arena.toList.flatMap slots)).filter (· = m)).Nodup := by
    rw [List.nodup_iff_count_le_one]
    intro other
    by_cases same : other = m
    · subst same
      rwa [List.count_filter (by simp)]
    · rw [List.count_eq_zero.2 fun listed => same (by simpa using (List.mem_filter.1 listed).2)]
      exact Nat.zero_le 1
  rw [namedMethods, List.filterMap_flatMap, List.filter_flatMap] at nodup
  rw [← Array.getElem?_toList] at found found'
  obtain ⟨inside, rfl⟩ := List.getElem?_eq_some_iff.1 found
  obtain ⟨inside', rfl⟩ := List.getElem?_eq_some_iff.1 found'
  -- Two different entries have no occurrence of the method in common.
  have apart := List.pairwise_iff_getElem.1 (List.nodup_flatMap.1 nodup).2
  have occurs : m ∈ (namedMethods (slots arena.toList[i])).filter (· = m) :=
    List.mem_filter.2 ⟨named, by simp⟩
  have occurs' : m ∈ (namedMethods (slots arena.toList[j])).filter (· = m) :=
    List.mem_filter.2 ⟨named', by simp⟩
  rcases Nat.lt_trichotomy i j with before | same | after
  · exact absurd occurs' (apart i j inside inside' before occurs)
  · exact same
  · exact absurd occurs (apart j i inside' inside after occurs')

/-- An element that passes a test, and is the only one to do so, is found. -/
theorem find?_eq_some_of_unique {α : Type} {test : α → Bool} {list : List α} {a : α}
    (listed : a ∈ list) (passed : test a) (unique : ∀ b ∈ list, test b → b = a) :
    list.find? test = some a := by
  have found : (list.find? test).isSome := List.find?_isSome.2 ⟨a, listed, passed⟩
  obtain ⟨b, found⟩ := Option.isSome_iff_exists.1 found
  rw [found, unique b (List.mem_of_find?_eq_some found) (List.find?_some found)]

namespace Program

variable {p : Program} {m : MethodId}

/-- The method is named by at most one accessor slot over all properties and events. -/
def NamedOnce (p : Program) (m : MethodId) : Prop := (namedMethods p.accessorSlots).count m ≤ 1

/-- Each method is named by at most one accessor slot. -/
def SingleSlots (p : Program) : Prop := ∀ m, (p.method? m).isSome → p.NamedOnce m

theorem singleSlots_iff (p : Program) :
    (∀ i < p.methods.size, (namedMethods p.accessorSlots).count ⟨i⟩ ≤ 1) ↔ p.SingleSlots := by
  constructor
  · intro each m known
    exact each m.index (by simpa [method?] using known)
  · intro single i inside
    exact single ⟨i⟩ (by simpa [method?] using inside)

instance (p : Program) : Decidable p.SingleSlots := decidable_of_iff _ p.singleSlots_iff

theorem isPropertyOf_iff {q : PropertyId} :
    p.isPropertyOf m q ↔ ∃ e, p.property? q = some e ∧ m ∈ namedMethods e.accessors := by
  unfold isPropertyOf
  cases p.property? q with
  | none => simp
  | some e => simp [namedMethods, Property.accessors]

theorem isEventOf_iff {q : EventId} :
    p.isEventOf m q ↔ ∃ e, p.event? q = some e ∧ m ∈ namedMethods e.accessors := by
  unfold isEventOf
  cases p.event? q with
  | none => simp
  | some e => simp [namedMethods, Event.accessors, or_assoc]

theorem mem_namedMethods_of_isPropertyOf {q : PropertyId} (names : p.isPropertyOf m q) :
    m ∈ namedMethods p.propertySlots := by
  obtain ⟨e, found, named⟩ := isPropertyOf_iff.1 names
  exact mem_namedMethods_flatMap found named

theorem mem_namedMethods_of_isEventOf {q : EventId} (names : p.isEventOf m q) :
    m ∈ namedMethods p.eventSlots := by
  obtain ⟨e, found, named⟩ := isEventOf_iff.1 names
  exact mem_namedMethods_flatMap found named

namespace NamedOnce

theorem count_le (once : p.NamedOnce m) :
    (namedMethods p.propertySlots).count m + (namedMethods p.eventSlots).count m ≤ 1 := by
  rw [NamedOnce, accessorSlots, namedMethods, List.filterMap_append, List.count_append] at once
  exact once

/-- A method belongs to one property at most. -/
theorem property_unique (once : p.NamedOnce m) {q q' : PropertyId} (names : p.isPropertyOf m q)
    (names' : p.isPropertyOf m q') : q = q' := by
  obtain ⟨e, found, named⟩ := isPropertyOf_iff.1 names
  obtain ⟨e', found', named'⟩ := isPropertyOf_iff.1 names'
  have only : (namedMethods p.propertySlots).count m ≤ 1 := by
    have both := once.count_le
    omega
  exact congrArg PropertyId.mk (eq_of_count_le_one only found found' named named')

/-- A method belongs to one event at most. -/
theorem event_unique (once : p.NamedOnce m) {q q' : EventId} (names : p.isEventOf m q)
    (names' : p.isEventOf m q') : q = q' := by
  obtain ⟨e, found, named⟩ := isEventOf_iff.1 names
  obtain ⟨e', found', named'⟩ := isEventOf_iff.1 names'
  have only : (namedMethods p.eventSlots).count m ≤ 1 := by
    have both := once.count_le
    omega
  exact congrArg EventId.mk (eq_of_count_le_one only found found' named named')

/-- No method belongs both to a property and to an event. -/
theorem not_mem_eventSlots (once : p.NamedOnce m) (named : m ∈ namedMethods p.propertySlots) :
    m ∉ namedMethods p.eventSlots := by
  intro again
  have both := once.count_le
  have first := List.count_pos_iff.2 named
  have second := List.count_pos_iff.2 again
  omega

end NamedOnce

/-! ## Parts -/

/-- A method that is named by a slot plays the part of such a slot, whatever it was read with. -/
theorem Tagged.mem_accessorSlots (tagged : p.Tagged p.accessorSlots) {d : MethodDefinition}
    (defined : p.methodDefinition? m = some d) (named : m ∈ namedMethods p.accessorSlots) :
    (some m, d.semantics) ∈ p.accessorSlots := by
  obtain ⟨part, slot⟩ := mem_namedMethods.1 named
  -- Of several slots the last one decides the part.
  cases assigned : lastPart p.accessorSlots m with
  | none => exact absurd rfl (lastPart_eq_none_iff.1 assigned _ slot)
  | some last =>
    rw [tagged m.index d last (method?_of_methodDefinition? defined) assigned]
    exact mem_of_lastPart assigned

theorem semantics_of_property (once : p.NamedOnce m) (tagged : p.Tagged p.accessorSlots)
    {d : MethodDefinition} (defined : p.methodDefinition? m = some d) {q : PropertyId}
    (names : p.isPropertyOf m q) : d.semantics = .getter ∨ d.semantics = .setter := by
  have named := mem_namedMethods_of_isPropertyOf names
  obtain ⟨part, slot⟩ := mem_namedMethods.1 named
  have slot := tagged.mem_accessorSlots defined
    (mem_namedMethods.2 ⟨part, List.mem_append_left _ slot⟩)
  -- A slot with the part of the method is one of a property, since no event names the method.
  rcases List.mem_append.1 slot with slot | slot
  · obtain ⟨e, -, slot⟩ := List.mem_flatMap.1 slot
    simp only [Property.accessors, List.mem_cons, Prod.mk.injEq, List.not_mem_nil, or_false] at slot
    exact slot.imp And.right And.right
  · exact absurd (mem_namedMethods.2 ⟨_, slot⟩) (once.not_mem_eventSlots named)

theorem semantics_of_event (once : p.NamedOnce m) (tagged : p.Tagged p.accessorSlots)
    {d : MethodDefinition} (defined : p.methodDefinition? m = some d) {q : EventId}
    (names : p.isEventOf m q) :
    d.semantics = .addOn ∨ d.semantics = .removeOn ∨ d.semantics = .fire := by
  have named := mem_namedMethods_of_isEventOf names
  obtain ⟨part, slot⟩ := mem_namedMethods.1 named
  have slot := tagged.mem_accessorSlots defined
    (mem_namedMethods.2 ⟨part, List.mem_append_right _ slot⟩)
  rcases List.mem_append.1 slot with slot | slot
  · exact absurd named (once.not_mem_eventSlots (mem_namedMethods.2 ⟨_, slot⟩))
  · obtain ⟨e, -, slot⟩ := List.mem_flatMap.1 slot
    simp only [Event.accessors, List.mem_cons, Prod.mk.injEq, List.not_mem_nil, or_false] at slot
    exact slot.imp And.right (Or.imp And.right And.right)

/-! ## What an accessor needs -/

section

variable {d : MethodDefinition} {owner : TypeDefinition} (once : p.NamedOnce m)
  (tagged : p.Tagged p.accessorSlots) (defined : p.methodDefinition? m = some d)
  (declared : p.typeDefinition? d.declaringType = some owner)

include once tagged defined declared

/-- The search on the declaring type finds the property that the accessor belongs to. -/
theorem property_mem_accessorNeeds {q : PropertyId} (listed : q ∈ owner.properties)
    (names : p.isPropertyOf m q) : .entity (.property q) ∈ p.accessorNeeds m d := by
  have found : owner.properties.find? (p.isPropertyOf m) = some q :=
    find?_eq_some_of_unique listed names fun other _ again => once.property_unique again names
  rcases semantics_of_property once tagged defined names with part | part <;>
    simp [accessorNeeds, declared, part, found]

/-- The search on the declaring type finds the event that the accessor belongs to. -/
theorem event_mem_accessorNeeds {q : EventId} (listed : q ∈ owner.events)
    (names : p.isEventOf m q) :
    .entity (.event q) ∈ p.accessorNeeds m d := by
  have found : owner.events.find? (p.isEventOf m) = some q :=
    find?_eq_some_of_unique listed names fun other _ again => once.event_unique again names
  rcases semantics_of_event once tagged defined names with part | part | part <;>
    simp [accessorNeeds, declared, part, found]

end

end Program

/-! ## Passes -/

/-- Every reached accessor has its property or event reached, if its declaring type lists that. -/
structure KeepsAccessorOwners (p : Program) (s : State) : Prop where
  property : ∀ m d owner q e, s.isReached (.method m) → p.methodDefinition? m = some d →
    p.typeDefinition? d.declaringType = some owner → q ∈ owner.properties → p.property? q = some e →
    (e.getter = some m ∨ e.setter = some m) → s.isReached (.property q)
  event : ∀ m d owner q e, s.isReached (.method m) → p.methodDefinition? m = some d →
    p.typeDefinition? d.declaringType = some owner → q ∈ owner.events → p.event? q = some e →
    (e.add = some m ∨ e.remove = some m ∨ e.invoke = some m) → s.isReached (.event q)

/-- What an accessor needs is reached with it. -/
theorem State.Heeds.isReached_of_mem_accessorNeeds {scene : Scene} {s : State}
    (heeds : s.Heeds scene) {m : MethodId} {d : MethodDefinition}
    (reached : s.isReached (.method m)) (defined : scene.program.methodDefinition? m = some d)
    {target : Entity} (needed : .entity target ∈ scene.program.accessorNeeds m d) :
    s.isReached target := by
  refine heeds.isReached_named rfl reached fun needs asked => ?_
  rw [Scene.needs_methodDefinition defined] at asked
  obtain ⟨generic, code, -, -, rfl⟩ := Scene.methodDefinitionRule_eq_ok asked
  exact List.mem_append_right _ needed

/-- Reached accessors keep what they belong to. In a program that was read from a document, with
whatever parts the document gives to its methods, and in which each method is named by at most one
accessor slot, calls that all succeed reach with every accessor its property or event. -/
theorem keepsAccessorOwners_of_succeeds {text : String} {scene : Scene} {strategy : Strategy}
    {loader : Loader} {recordRetention : Bool} {calls : List Call}
    (parsed : Program.parse? text = some scene.program) (single : scene.program.SingleSlots)
    (succeeds : (Session.fresh scene strategy loader recordRetention).Succeeds calls) :
    KeepsAccessorOwners scene.program
      ((Session.fresh scene strategy loader recordRetention).after calls).state := by
  have tagged := Program.tagged_of_parse? parsed
  have heeds := succeeds.heeds (Session.heeds_fresh scene strategy loader recordRetention)
  have once {m : MethodId} {d : MethodDefinition}
      (defined : scene.program.methodDefinition? m = some d) : scene.program.NamedOnce m := by
    refine single m ?_
    rw [Program.method?_of_methodDefinition? defined]
    rfl
  constructor
  case property =>
    intro m d owner q e reached defined declared listed found named
    have names : scene.program.isPropertyOf m q := by
      simpa [Program.isPropertyOf, found] using named
    exact heeds.isReached_of_mem_accessorNeeds reached defined
      (Program.property_mem_accessorNeeds (once defined) tagged defined declared listed names)
  case event =>
    intro m d owner q e reached defined declared listed found named
    have names : scene.program.isEventOf m q := by
      simpa [Program.isEventOf, found, or_assoc] using named
    exact heeds.isReached_of_mem_accessorNeeds reached defined
      (Program.event_mem_accessorNeeds (once defined) tagged defined declared listed names)

/-- A type with two properties and an event. The document says that the method which reads one of
the properties raises an event, and that the one which raises the event is no accessor. -/
def gauge : Program where
  types := #[
    .definition
      { namespaceName := "App", name := "Gauge", methods := [⟨0⟩, ⟨1⟩, ⟨2⟩],
        properties := [⟨1⟩, ⟨0⟩]
        events := [⟨0⟩] },
    .reference "System.Int32"]
  methods := #[
    .definition { declaringType := ⟨0⟩, name := "get_Item", returnType := ⟨1⟩, semantics := .fire },
    .definition {
      declaringType := ⟨0⟩, name := "set_Level", returnType := ⟨1⟩, semantics := .setter },
    .definition { declaringType := ⟨0⟩, name := "raise_Changed", returnType := ⟨1⟩ }]
  properties := #[
    { declaringType := ⟨0⟩, name := "Item", propertyType := ⟨1⟩, getter := some ⟨0⟩ },
    { declaringType := ⟨0⟩, name := "Level", propertyType := ⟨1⟩, setter := some ⟨1⟩ }]
  events := #[{ declaringType := ⟨0⟩, name := "Changed", eventType := ⟨1⟩, invoke := some ⟨2⟩ }]

set_option maxRecDepth 4000 in
/-- Marking the two accessors reaches the property and the event, but not the other property. -/
theorem keepsAccessorOwners_gauge :
    let calls : List Call := [.markRoots [.method ⟨0⟩, .method ⟨2⟩]]
    ∃ p, Program.parse? gauge.document = some p ∧ p.SingleSlots ∧
      let session :=
        Session.fresh { program := p, includes := fun _ => false } .recursive .empty true
      session.Succeeds calls ∧ KeepsAccessorOwners p (session.after calls).state ∧
      (session.after calls).isReached (.property ⟨0⟩) ∧
        (session.after calls).isReached (.event ⟨0⟩) ∧
      (session.after calls).isReached (.property ⟨1⟩) = false := by
  intro calls
  have tested : (Program.parse? gauge.document).any fun p =>
      let session :=
        Session.fresh { program := p, includes := fun _ => false } .recursive .empty true
      ((session.attempt 100 calls).any fun result => result.1.all (·.1.isOk) &&
        result.2.isReached (.property ⟨0⟩) && result.2.isReached (.event ⟨0⟩) &&
        !result.2.isReached (.property ⟨1⟩)) && p.SingleSlots := by
    rw [Program.parse?_document]
    decide +kernel
  obtain ⟨p, parsed, passed⟩ := (Option.any_eq_true _ _).1 tested
  simp only [Bool.and_eq_true, decide_eq_true_eq] at passed
  obtain ⟨attempted, single⟩ := passed
  have marked := Session.attempt_any _ calls 100 (fun entries final => entries.all (·.1.isOk) &&
    final.isReached (.property ⟨0⟩) && final.isReached (.event ⟨0⟩) &&
    !final.isReached (.property ⟨1⟩)) attempted
  simp only [Bool.and_eq_true, Bool.not_eq_true'] at marked
  obtain ⟨⟨⟨ok, property⟩, event⟩, other⟩ := marked
  have succeeds := Session.succeeds_of_isOk ok
  exact ⟨p, parsed, single, succeeds,
    keepsAccessorOwners_of_succeeds parsed single succeeds, property, event, other⟩

end Liveset
