import Liveset.Proofs.Program.Construction
import Mathlib.Data.List.Basic

/-!
# Two directions of ownership

A member names its owner, and the owner lists the member. There are seven such pairs of directions,
one for each kind of list that a definition keeps, and they behave alike. A `Listing` holds the two
directions of one of them. An operation of the builder adds a node that may be listed, a node that
may list, both or neither (`Program.listing_perform`), and each addition keeps the directions in
step (`Program.InStep.perform`).
-/

set_option autoImplicit false

namespace Liveset

/-! ## Listings -/

/-- Two directions of ownership. -/
structure Listing where
  /-- For each node of one arena the positions it lists, or `none` if it is no definition. -/
  lists : List (Option (List Nat))
  /-- For each node of another arena the position of the owner it names, if it names one. -/
  owners : List (Option Nat)

namespace Listing

variable {l : Listing}

/-- The positions of the nodes that name an owner, in increasing order. -/
def ownedBy (l : Listing) (owner : Nat) : List Nat := l.owners.findIdxs (· = some owner)

/-- What is listed is what names the lister as its owner, and the owners that are named exist. -/
structure InStep (l : Listing) : Prop where
  lists : ∀ (owner : Nat) (items : List Nat), l.lists[owner]? = some (some items) →
    items = l.ownedBy owner
  known : ∀ owner, some owner ∈ l.owners → owner < l.lists.length

/-- One more node that may list others; a definition begins with an empty list. -/
def addLister (l : Listing) (isDefinition : Bool) : Listing :=
  { l with lists := l.lists ++ [if isDefinition then some [] else none] }

/-- One more node that may be listed, put on the list of the owner it names. -/
def addMember (l : Listing) (owner? : Option Nat) : Listing where
  lists := match owner? with
    | some owner => l.lists.modify owner (Option.map (· ++ [l.owners.length]))
    | none => l.lists
  owners := l.owners ++ [owner?]

theorem ownedBy_addMember (l : Listing) (owner? : Option Nat) (owner : Nat) :
    (l.addMember owner?).ownedBy owner =
      l.ownedBy owner ++ if owner? = some owner then [l.owners.length] else [] := by
  simp [ownedBy, addMember, List.findIdxs_append]

/-- Nothing names an owner that is yet to come. -/
theorem InStep.ownedBy_eq_nil (h : l.InStep) : l.ownedBy l.lists.length = [] := by
  rw [ownedBy, List.findIdxs_eq_nil_iff]
  intro owner? member
  refine decide_eq_false fun named => ?_
  subst named
  exact Nat.lt_irrefl _ (h.known _ member)

theorem InStep.addLister (h : l.InStep) (isDefinition : Bool) :
    (l.addLister isDefinition).InStep where
  lists owner items found := by
    simp only [Listing.addLister, List.getElem?_append] at found
    split at found
    · exact h.lists owner items found
    · rename_i late
      have last : owner = l.lists.length := by
        by_contra other
        rw [List.getElem?_eq_none (by simp; omega)] at found
        cases found
      subst last
      cases isDefinition with
      | false => simp at found
      | true =>
        have empty : items = [] := by simpa using found.symm
        rw [empty]
        exact h.ownedBy_eq_nil.symm
  known owner member := by
    have before := h.known owner member
    simp only [Listing.addLister, List.length_append, List.length_singleton]
    omega

theorem InStep.addMember (h : l.InStep) {owner? : Option Nat}
    (present : ∀ owner, owner? = some owner → owner < l.lists.length) :
    (l.addMember owner?).InStep where
  lists owner items found := by
    rw [ownedBy_addMember]
    cases owner? with
    | none => simpa using h.lists owner items found
    | some new =>
      simp only [Listing.addMember, List.getElem?_modify] at found
      by_cases same : new = owner
      · -- the list of the owner grows by the new position, and so does what names it
        subst same
        cases before : l.lists[new]? with
        | none => simp [before] at found
        | some items? =>
          cases items? with
          | none => simp [before] at found
          | some older =>
            have grown : older ++ [l.owners.length] = items := by simpa [before] using found
            simp [← grown, h.lists new older before]
      · have kept : l.lists[owner]? = some (some items) := by simpa [same] using found
        simpa [same] using h.lists owner items kept
  known owner member := by
    have length : (l.addMember owner?).lists.length = l.lists.length := by
      cases owner? <;> simp [Listing.addMember]
    rw [length]
    rcases List.mem_append.1 member with old | new
    · exact h.known owner old
    · exact present owner (List.mem_singleton.1 new).symm

/-- What an operation may add, first a node that may be listed and then one that may list. -/
def add (l : Listing) (owner?? : Option (Option Nat)) (isDefinition? : Option Bool) : Listing :=
  let listed := match owner?? with
    | some owner? => l.addMember owner?
    | none => l
  match isDefinition? with
    | some isDefinition => listed.addLister isDefinition
    | none => listed

theorem InStep.add (h : l.InStep) {owner?? : Option (Option Nat)} (isDefinition? : Option Bool)
    (present : ∀ owner, owner?? = some (some owner) → owner < l.lists.length) :
    (l.add owner?? isDefinition?).InStep := by
  have listed : (match owner?? with
      | some owner? => l.addMember owner?
      | none => l).InStep := by
    cases owner?? with
    | none => exact h
    | some owner? => exact h.addMember fun owner named => present owner (by rw [named])
  cases isDefinition? with
  | none => exact listed
  | some isDefinition => exact listed.addLister isDefinition

end Listing

/-! ## The listings of a program -/

/-- The lists that definitions keep of what they own: five on types and two on methods. -/
inductive Ownership where
  | methods
  | fields
  | properties
  | events
  | typeParameters
  | parameters
  | methodParameters
deriving DecidableEq

/-- The type that declares a generic parameter. -/
def GenericOwner.type? : GenericOwner → Option TypeId
  | .type t => some t
  | .method _ => none

/-- The method that declares a generic parameter. -/
def GenericOwner.method? : GenericOwner → Option MethodId
  | .type _ => none
  | .method m => some m

/-- The method that declares a parameter. -/
def ParameterOwner.method? : ParameterOwner → Option MethodId
  | .method m => some m
  | .property _ => none

theorem GenericOwner.type?_eq_some_iff {owner : GenericOwner} {t : TypeId} :
    owner.type? = some t ↔ owner = .type t := by
  cases owner <;> simp [GenericOwner.type?]

theorem GenericOwner.method?_eq_some_iff {owner : GenericOwner} {m : MethodId} :
    owner.method? = some m ↔ owner = .method m := by
  cases owner <;> simp [GenericOwner.method?]

theorem ParameterOwner.method?_eq_some_iff {owner : ParameterOwner} {m : MethodId} :
    owner.method? = some m ↔ owner = .method m := by
  cases owner <;> simp [ParameterOwner.method?]

namespace Ownership

/-- Is the list kept by types? -/
def ofTypes : Ownership → Bool
  | .parameters | .methodParameters => false
  | _ => true

/-- The list that a type definition keeps. -/
def typeItems : Ownership → TypeDefinition → List Nat
  | .methods, d => d.methods.map (·.index)
  | .fields, d => d.fields.map (·.index)
  | .properties, d => d.properties.map (·.index)
  | .events, d => d.events.map (·.index)
  | .typeParameters, d => d.genericParameters.map (·.index)
  | .parameters, _ | .methodParameters, _ => []

/-- The list that a method definition keeps. -/
def methodItems : Ownership → MethodDefinition → List Nat
  | .parameters, d => d.parameters.map (·.index)
  | .methodParameters, d => d.genericParameters.map (·.index)
  | _, _ => []

end Ownership

namespace Program

/-- What each node of an arena lists, if it is a definition. -/
def nodeLists {ν δ : Type} (definition? : ν → Option δ) (items : δ → List Nat) (arena : Array ν) :
    List (Option (List Nat)) :=
  arena.toList.map fun node => (definition? node).map items

/-- What each node lists that may keep such a list. -/
def lists (p : Program) (k : Ownership) : List (Option (List Nat)) :=
  if k.ofTypes then nodeLists TypeNode.definition? k.typeItems p.types
  else nodeLists MethodNode.definition? k.methodItems p.methods

/-- The owner that each node names which may stand on such a list. -/
def owners (p : Program) : Ownership → List (Option Nat)
  | .methods => p.methods.toList.map fun node => node.definition?.map (·.declaringType.index)
  | .fields => p.fields.toList.map fun node => node.definition?.map (·.declaringType.index)
  | .properties => p.properties.toList.map fun d => some d.declaringType.index
  | .events => p.events.toList.map fun d => some d.declaringType.index
  | .typeParameters => p.genericParameters.toList.map fun d => d.owner.type?.map (·.index)
  | .parameters => p.parameters.toList.map fun d => d.owner.method?.map (·.index)
  | .methodParameters => p.genericParameters.toList.map fun d => d.owner.method?.map (·.index)

/-- The two directions of one kind of ownership. -/
def listing (p : Program) (k : Ownership) : Listing := ⟨p.lists k, p.owners k⟩

end Program

/-! ## What an operation adds -/

namespace Operation

/-- Whether the operation adds a type and, if so, whether it is a definition. -/
def newType : Operation → Option Bool
  | .type _ => some true
  | .specification _ | .typeReference _ | .genericParameter _ _ => some false
  | _ => none

/-- Whether the operation adds a method and, if so, whether it is a definition. -/
def newMethod : Operation → Option Bool
  | .method _ => some true
  | .methodReference _ | .methodInstance _ _ => some false
  | _ => none

/-- The node that the operation adds to those that may list. -/
def newLister (operation : Operation) (k : Ownership) : Option Bool :=
  if k.ofTypes then operation.newType else operation.newMethod

/-- The node that the operation adds to those that may be listed, by the owner it names. -/
def newMember : Operation → Ownership → Option (Option Nat)
  | .method d, .methods => some (some d.declaringType.index)
  | .methodReference _, .methods => some none
  | .methodInstance _ _, .methods => some none
  | .field d, .fields => some (some d.declaringType.index)
  | .fieldReference _, .fields => some none
  | .property d, .properties => some (some d.declaringType.index)
  | .event d, .events => some (some d.declaringType.index)
  | .genericParameter owner _, .typeParameters => some (owner.type?.map (·.index))
  | .genericParameter owner _, .methodParameters => some (owner.method?.map (·.index))
  | .parameter m _ _, .parameters => some (some m.index)
  | _, _ => none

/-- A definition that is added lists nothing yet. The parameters of an indexed property are no list
of this kind. -/
def Bare : Operation → Prop
  | .type d => d.methods = [] ∧ d.fields = [] ∧ d.properties = [] ∧ d.events = [] ∧
      d.genericParameters = [] ∧ d.attributes = []
  | .method d => d.parameters = [] ∧ d.genericParameters = [] ∧ d.attributes = []
  | .field d => d.attributes = []
  | .property d => d.attributes = []
  | .event d => d.attributes = []
  | _ => True

end Operation

namespace Program

variable {k : Ownership}

section NodeLists

variable {ν δ : Type} {definition? : ν → Option δ} {items : δ → List Nat} {f : δ → δ} {F : ν → ν}

theorem nodeLists_push (definition? : ν → Option δ) (items : δ → List Nat) (arena : Array ν)
    (node : ν) :
    nodeLists definition? items (arena.push node) =
      nodeLists definition? items arena ++ [(definition? node).map items] := by
  simp [nodeLists]

/-- Adding to the list of one definition, or to none. -/
theorem nodeLists_modify (arena : Array ν) (i : Nat) (new : List Nat)
    (defined : ∀ node, definition? (F node) = (definition? node).map f)
    (change : ∀ d, items (f d) = items d ++ new) :
    nodeLists definition? items (arena.modify i F) =
      (nodeLists definition? items arena).modify i (Option.map (· ++ new)) := by
  refine List.ext_getElem? fun j => ?_
  simp only [nodeLists, Array.toList_modify, List.getElem?_map, List.getElem?_modify]
  cases arena.toList[j]? with
  | none => split <;> rfl
  | some node =>
    split
    · cases found : definition? node <;> simp [defined, found, change]
    · rfl

end NodeLists

theorem lists_modifyType (p : Program) (id : TypeId) {f : TypeDefinition → TypeDefinition}
    (new : List Nat) (change : ∀ d, k.typeItems (f d) = k.typeItems d ++ new)
    (ofTypes : k.ofTypes) :
    (p.modifyType id f).lists k = (p.lists k).modify id.index (Option.map (· ++ new)) := by
  simp only [lists, ofTypes, if_true]
  exact nodeLists_modify p.types id.index new (fun node => by cases node <;> rfl) change

theorem lists_modifyMethod (p : Program) (id : MethodId) {f : MethodDefinition → MethodDefinition}
    (new : List Nat) (change : ∀ d, k.methodItems (f d) = k.methodItems d ++ new)
    (ofMethods : k.ofTypes = false) :
    (p.modifyMethod id f).lists k = (p.lists k).modify id.index (Option.map (· ++ new)) := by
  simp only [lists, ofMethods]
  exact nodeLists_modify p.methods id.index new (fun node => by cases node <;> rfl) change

theorem owners_modifyType (p : Program) (id : TypeId) (f : TypeDefinition → TypeDefinition)
    (k : Ownership) : (p.modifyType id f).owners k = p.owners k := by
  cases k <;> rfl

theorem owners_modifyMethod (p : Program) (id : MethodId) {f : MethodDefinition → MethodDefinition}
    (same : ∀ d, (f d).declaringType = d.declaringType) (k : Ownership) :
    (p.modifyMethod id f).owners k = p.owners k := by
  cases k with
  | methods =>
    refine map_toList_modify (fun node => ?_) p.methods id.index
    cases node <;> simp [MethodNode.definition?, same]
  | _ => rfl

/-- Changing something else about a type. -/
theorem listing_modifyType (p : Program) (id : TypeId) {f : TypeDefinition → TypeDefinition}
    (same : ∀ d, k.typeItems (f d) = k.typeItems d) :
    (p.modifyType id f).listing k = p.listing k := by
  have kept : (p.modifyType id f).lists k = p.lists k := by
    cases ofTypes : k.ofTypes with
    | false => simp only [lists, ofTypes]; rfl
    | true =>
      rw [lists_modifyType p id [] (fun d => by rw [same, List.append_nil]) ofTypes]
      simp
  rw [listing, listing, kept, owners_modifyType]

/-- Changing something else about a method. -/
theorem listing_modifyMethod (p : Program) (id : MethodId) {f : MethodDefinition → MethodDefinition}
    (same : ∀ d, k.methodItems (f d) = k.methodItems d)
    (declared : ∀ d, (f d).declaringType = d.declaringType) :
    (p.modifyMethod id f).listing k = p.listing k := by
  have kept : (p.modifyMethod id f).lists k = p.lists k := by
    cases ofTypes : k.ofTypes with
    | true => simp only [lists, ofTypes]; rfl
    | false =>
      rw [lists_modifyMethod p id [] (fun d => by rw [same, List.append_nil]) ofTypes]
      simp
  rw [listing, listing, kept, owners_modifyMethod p id declared]

theorem listing_tagAccessors (p : Program) (slots : List (Option MethodId × Semantics)) :
    (p.tagAccessors slots).listing k = p.listing k := by
  induction slots generalizing p with
  | nil => rfl
  | cons slot rest ih =>
    refine (ih (p.tagAccessor slot)).trans ?_
    unfold tagAccessor
    split
    · rfl
    · exact p.listing_modifyMethod _ (fun d => by cases k <;> rfl) fun _ => rfl

/-- Adding a node and listing it on the type that it names. -/
theorem listing_enlistType {p q : Program} {id : TypeId} {f : TypeDefinition → TypeDefinition}
    (ofTypes : k.ofTypes) (lists : q.lists k = p.lists k)
    (owners : q.owners k = p.owners k ++ [some id.index])
    (change : ∀ d, k.typeItems (f d) = k.typeItems d ++ [(p.owners k).length]) :
    (q.modifyType id f).listing k = (p.listing k).addMember (some id.index) := by
  rw [listing, lists_modifyType q id _ change ofTypes, owners_modifyType, lists, owners]
  rfl

/-- Adding a node and listing it on the method that it names. -/
theorem listing_enlistMethod {p q : Program} {id : MethodId}
    {f : MethodDefinition → MethodDefinition} (ofMethods : k.ofTypes = false)
    (lists : q.lists k = p.lists k) (owners : q.owners k = p.owners k ++ [some id.index])
    (declared : ∀ d, (f d).declaringType = d.declaringType)
    (change : ∀ d, k.methodItems (f d) = k.methodItems d ++ [(p.owners k).length]) :
    (q.modifyMethod id f).listing k = (p.listing k).addMember (some id.index) := by
  rw [listing, lists_modifyMethod q id _ change ofMethods, owners_modifyMethod q id declared, lists,
    owners]
  rfl

theorem listing_pushType (p : Program) {n : TypeNode}
    (bare : ∀ d, n.definition? = some d → k.typeItems d = []) :
    (p.pushType n).2.listing k =
      (p.listing k).add none (if k.ofTypes then some n.definition?.isSome else none) := by
  have owners : (p.pushType n).2.owners k = p.owners k := by cases k <;> rfl
  rw [listing, owners]
  cases ofTypes : k.ofTypes with
  | false => simp [lists, ofTypes, Listing.add, listing, pushType]
  | true =>
    simp only [lists, ofTypes, if_true, pushType, nodeLists_push, Listing.add, Listing.addLister,
      listing]
    cases found : n.definition? with
    | none => simp
    | some d => simp [bare d found]

theorem listing_pushMethod (p : Program) {n : MethodNode}
    (bare : ∀ d, n.definition? = some d → k.methodItems d = []) (other : k ≠ .methods) :
    (p.pushMethod n).2.listing k =
      (p.listing k).add none (if k.ofTypes then none else some n.definition?.isSome) := by
  have owners : (p.pushMethod n).2.owners k = p.owners k := by
    cases k with
    | methods => exact absurd rfl other
    | _ => rfl
  rw [listing, owners]
  cases ofTypes : k.ofTypes with
  | true => simp [lists, ofTypes, Listing.add, listing, pushMethod]
  | false =>
    simp only [lists, ofTypes, pushMethod, nodeLists_push, Listing.add, Listing.addLister, listing]
    cases found : n.definition? with
    | none => simp
    | some d => simp [bare d found]

/-- Adding a method that is no definition. -/
theorem listing_addMethodNode (p : Program) {n : MethodNode} (absent : n.definition? = none)
    (k : Ownership) {a : Listing}
    (added : a = (p.listing k).add (if k = .methods then some none else none)
      (if k.ofTypes then none else some false)) : (p.pushMethod n).2.listing k = a := by
  subst added
  by_cases methods : k = .methods
  · subst methods
    simp [pushMethod, listing, lists, owners, Listing.add, Listing.addMember,
      Ownership.ofTypes, absent]
  · rw [p.listing_pushMethod (fun d found => by rw [absent] at found; cases found) methods, absent,
      if_neg methods]
    rfl

/-- Declaring a generic parameter, before the type that stands for it is added. -/
theorem listing_declare (p : Program) (owner : GenericOwner) (name : String) (k : Ownership) :
    ({ p with genericParameters := p.genericParameters.push { owner, name } }.listGenericParameter
        owner ⟨p.genericParameters.size⟩).listing k =
      (p.listing k).add ((Operation.genericParameter owner name).newMember k) none := by
  cases owner with
  | type t =>
    cases k with
    | typeParameters =>
      exact listing_enlistType rfl rfl (by simp [owners, GenericOwner.type?])
        (fun d => by simp [Ownership.typeItems, owners])
    | methodParameters =>
      refine (listing_modifyType _ t fun _ => by rfl).trans ?_
      simp [listing, lists, owners, Ownership.ofTypes, Operation.newMember, Listing.add,
        Listing.addMember, GenericOwner.method?]
    | _ => exact listing_modifyType _ t fun _ => rfl
  | method m =>
    cases k with
    | methodParameters =>
      exact listing_enlistMethod rfl rfl (by simp [owners, GenericOwner.method?]) (fun _ => rfl)
        (fun d => by simp [Ownership.methodItems, owners])
    | typeParameters =>
      refine (listing_modifyMethod _ m (fun _ => by rfl) fun _ => by rfl).trans ?_
      simp [listing, lists, owners, Ownership.ofTypes, Operation.newMember, Listing.add,
        Listing.addMember, GenericOwner.type?]
    | _ => exact listing_modifyMethod _ m (fun _ => rfl) fun _ => rfl

theorem listing_listAttribute (p : Program) (owner : Entity) (id : AttributeId) (k : Ownership) :
    (p.listAttribute owner id).listing k = p.listing k := by
  cases owner with
  | type t => exact p.listing_modifyType t fun _ => by cases k <;> rfl
  | method m => exact p.listing_modifyMethod m (fun _ => by cases k <;> rfl) fun _ => rfl
  | field f =>
    cases k with
    | fields =>
      exact congrArg (Listing.mk _)
        (map_toList_modify (fun node => by cases node <;> rfl) p.fields f.index)
    | _ => rfl
  | property d =>
    cases k with
    | properties =>
      exact congrArg (Listing.mk _) (map_toList_modify (fun _ => by rfl) p.properties d.index)
    | _ => rfl
  | event d =>
    cases k with
    | events =>
      exact congrArg (Listing.mk _) (map_toList_modify (fun _ => by rfl) p.events d.index)
    | _ => rfl
  | parameter d =>
    cases k with
    | parameters =>
      exact congrArg (Listing.mk _) (map_toList_modify (fun _ => by rfl) p.parameters d.index)
    | _ => rfl
  | genericParameter d =>
    cases k with
    | typeParameters | methodParameters =>
      exact congrArg (Listing.mk _)
        (map_toList_modify (fun _ => by rfl) p.genericParameters d.index)
    | _ => rfl
  | «attribute» | foreignClass | foreignField | foreignMethod => rfl

/-- What an operation does to the directions of ownership. -/
theorem listing_perform (p : Program) {operation : Operation} (bare : operation.Bare)
    (k : Ownership) :
    (p.perform operation).listing k =
      (p.listing k).add (operation.newMember k) (operation.newLister k) := by
  cases operation with
  | type d =>
    obtain ⟨methods, fields, properties, events, generic, -⟩ := bare
    have empty : ∀ d', (TypeNode.definition d).definition? = some d' → k.typeItems d' = [] := by
      rintro _ ⟨⟩
      cases k <;> simp [Ownership.typeItems, methods, fields, properties, events, generic]
    have step := p.listing_pushType empty
    cases k <;> exact step
  | specification s =>
    have step := p.listing_pushType (k := k) (n := .specification s) (fun _ found => by cases found)
    cases k <;> exact step
  | typeReference fullName =>
    have step := p.listing_pushType (k := k) (n := .reference fullName)
      (fun _ found => by cases found)
    cases k <;> exact step
  | genericParameter owner name =>
    let declared := { p with genericParameters := p.genericParameters.push { owner, name } }
    have step := (declared.listGenericParameter owner ⟨p.genericParameters.size⟩).listing_pushType
      (k := k) (n := .genericParameter ⟨p.genericParameters.size⟩) (fun _ found => by cases found)
    rw [p.listing_declare owner name k] at step
    cases k <;> exact step
  | method d =>
    obtain ⟨parameters, generic, -⟩ := bare
    cases k with
    | methods =>
      exact listing_enlistType rfl rfl (by simp [owners, MethodNode.definition?])
        (fun d => by simp [Ownership.typeItems, owners])
    | parameters | methodParameters =>
      refine (listing_modifyType _ _ fun _ => by rfl).trans ?_
      refine p.listing_pushMethod (n := .definition d) ?_ (by decide)
      rintro _ ⟨⟩
      simp [Ownership.methodItems, parameters, generic]
    | _ => exact listing_modifyType _ _ fun _ => rfl
  | methodReference r =>
    exact p.listing_addMethodNode (n := .reference r) rfl k (by cases k <;> rfl)
  | methodInstance element arguments =>
    exact p.listing_addMethodNode (n := .instance element arguments) rfl k (by cases k <;> rfl)
  | parameter m name type =>
    cases k with
    | parameters =>
      exact listing_enlistMethod rfl rfl (by simp [owners, ParameterOwner.method?]) (fun _ => rfl)
        (fun d => by simp [Ownership.methodItems, owners])
    | _ => exact listing_modifyMethod _ _ (fun _ => rfl) fun _ => rfl
  | field d =>
    cases k with
    | fields =>
      exact listing_enlistType rfl rfl (by simp [owners, FieldNode.definition?])
        (fun d => by simp [Ownership.typeItems, owners])
    | _ => exact listing_modifyType _ _ fun _ => rfl
  | fieldReference r =>
    cases k with
    | fields =>
      simp [perform, addFieldReference, pushField, listing, lists, owners, Operation.newMember,
        Operation.newLister, Operation.newType, Listing.add, Listing.addMember, Ownership.ofTypes,
        FieldNode.definition?]
    | _ => rfl
  | property d =>
    rw [perform, addProperty, listing_tagAccessors]
    cases k with
    | properties =>
      exact listing_enlistType rfl rfl (by simp [owners])
        (fun d => by simp [Ownership.typeItems, owners])
    | _ => exact listing_modifyType _ _ fun _ => rfl
  | event d =>
    rw [perform, addEvent, listing_tagAccessors]
    cases k with
    | events =>
      exact listing_enlistType rfl rfl (by simp [owners])
        (fun d => by simp [Ownership.typeItems, owners])
    | _ => exact listing_modifyType _ _ fun _ => rfl
  | «attribute» owner a =>
    rw [perform, addAttribute, listing_listAttribute]
    cases k <;> rfl
  | programAttribute a => cases k <;> rfl
  | entryPoint e =>
    have step : (p.addEntryPoint e).listing k = p.listing k := by
      unfold addEntryPoint
      split
      · rfl
      · cases k <;> rfl
    cases k <;> exact step

/-- The lists of a program are in step with the owners that its nodes name. -/
def InStep (p : Program) : Prop := ∀ k, (p.listing k).InStep

theorem length_lists (p : Program) (k : Ownership) :
    (p.lists k).length = if k.ofTypes then p.types.size else p.methods.size := by
  cases ofTypes : k.ofTypes <;> simp [lists, ofTypes, nodeLists]

end Program

/-- The declaring type or other owner that the operation names is there. -/
def Operation.OwnerExists (p : Program) : Operation → Prop
  | .method d => d.declaringType.index < p.types.size
  | .field d => d.declaringType.index < p.types.size
  | .property d => d.declaringType.index < p.types.size
  | .event d => d.declaringType.index < p.types.size
  | .genericParameter (.type t) _ => t.index < p.types.size
  | .genericParameter (.method m) _ => m.index < p.methods.size
  | .parameter m _ _ => m.index < p.methods.size
  | _ => True

namespace Program

theorem lt_length_of_newMember {p : Program} {operation : Operation}
    (known : operation.OwnerExists p) {k : Ownership} {owner : Nat}
    (named : operation.newMember k = some (some owner)) : owner < (p.listing k).lists.length := by
  show owner < (p.lists k).length
  rw [length_lists]
  cases operation with
  | genericParameter owner name => cases owner <;> cases k <;> cases named <;> exact known
  | _ => cases k <;> cases named <;> exact known

theorem InStep.perform {p : Program} (h : p.InStep) {operation : Operation} (bare : operation.Bare)
    (known : operation.OwnerExists p) : (p.perform operation).InStep := by
  intro k
  rw [listing_perform p bare]
  exact (h k).add _ fun owner named => lt_length_of_newMember known named

theorem inStep_empty : InStep {} := by
  intro k
  have lists : lists {} k = [] := by cases k <;> rfl
  have owners : owners {} k = [] := by cases k <;> rfl
  constructor
  · intro owner items found
    simp [listing, lists] at found
  · intro owner member
    simp [listing, owners] at member

end Program

end Liveset
