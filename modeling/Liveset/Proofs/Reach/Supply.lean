import Liveset.Proofs.Foreign.Growth
import Liveset.Program.Description
import Liveset.Reach.Step

/-!
# Meeting needs, now and later

Needs are met against a repository that goes on growing. Meeting them loads the classes that they
name, and only those; meeting them again later gives the same steps and loads nothing
(`Need.supply_of_extends`). Needs that the repository has answered are settled, and are met one by
one (`Need.supply_of_settled`). The foreign entities among the steps belong to loaded classes
(`Need.loaded_of_supply`), provided that no need names a foreign entity outright (`Need.Allowed`).

The owner of an entity is looked at here as well: an entity has at most two owners above it, one
above the other, and an entity of a loaded class has its owner in that class.
-/

set_option autoImplicit false

namespace Liveset

/-! ## Owners and loaded classes -/

/-- If the entity is a foreign class or a member of one, that class is loaded. -/
def Entity.Loaded (r : Repository) : Entity → Prop
  | .foreignClass id | .foreignField id _ | .foreignMethod id _ => (r.class? id).isSome
  | _ => True

theorem Entity.Loaded.mono {r r' : Repository} (h : r.Extends r') {e : Entity}
    (loaded : e.Loaded r) : e.Loaded r' := by
  cases e
  case foreignClass | foreignField | foreignMethod => exact h.isSome_class? loaded
  all_goals trivial

theorem Entity.loaded_of_not_foreign {r : Repository} {e : Entity} (h : e.isForeign = false) :
    e.Loaded r := by
  cases e
  case foreignClass | foreignField | foreignMethod => cases h
  all_goals trivial

/-- Is the entity neither an attribute nor foreign? -/
def Entity.isInherent : Entity → Bool
  | .attribute _ | .foreignClass _ | .foreignField _ _ | .foreignMethod _ _ => false
  | _ => true

theorem Entity.not_foreign_of_isInherent {e : Entity} (h : e.isInherent) : e.isForeign = false := by
  cases e with
  | foreignClass _ | foreignField _ _ | foreignMethod _ _ => cases h
  | _ => rfl

/-- How many owners stand above an entity at most. -/
def Entity.height : Entity → Nat
  | .type _ | .attribute _ | .foreignClass _ => 0
  | .parameter _ | .genericParameter _ => 2
  | _ => 1

theorem Entity.height_le_two (e : Entity) : e.height ≤ 2 := by
  cases e <;> simp [height]

/-- An owner stands above what it owns, and on the same side of the border of the program. -/
theorem Program.height_owner {p : Program} {e owner : Entity} (owns : p.owner? e = some owner) :
    owner.height < e.height ∧ owner.isForeign = e.isForeign := by
  cases e with
  | type id => cases owns
  | «attribute» id => cases owns
  | foreignClass id => cases owns
  | foreignField id position => cases owns; exact ⟨Nat.zero_lt_one, rfl⟩
  | foreignMethod id position => cases owns; exact ⟨Nat.zero_lt_one, rfl⟩
  | method id =>
    simp only [owner?] at owns
    split at owns
    · cases owns; exact ⟨Nat.zero_lt_one, rfl⟩
    · cases owns; exact ⟨Nat.zero_lt_one, rfl⟩
    · obtain ⟨t, -, rfl⟩ := Option.map_eq_some_iff.1 owns
      exact ⟨Nat.zero_lt_one, rfl⟩
    · cases owns
  | field id =>
    simp only [owner?] at owns
    split at owns <;> cases owns <;> exact ⟨Nat.zero_lt_one, rfl⟩
  | property id =>
    obtain ⟨d, -, rfl⟩ := Option.map_eq_some_iff.1 owns
    exact ⟨Nat.zero_lt_one, rfl⟩
  | event id =>
    obtain ⟨d, -, rfl⟩ := Option.map_eq_some_iff.1 owns
    exact ⟨Nat.zero_lt_one, rfl⟩
  | parameter id =>
    obtain ⟨d, -, rfl⟩ := Option.map_eq_some_iff.1 owns
    split <;> exact ⟨Nat.one_lt_two, rfl⟩
  | genericParameter id =>
    obtain ⟨d, -, rfl⟩ := Option.map_eq_some_iff.1 owns
    split
    · exact ⟨Nat.zero_lt_two, rfl⟩
    · exact ⟨Nat.one_lt_two, rfl⟩

/-- Attributes own nothing. -/
theorem Program.owner?_ne_attribute (p : Program) (e : Entity) (id : AttributeId) :
    p.owner? e ≠ some (.attribute id) := by
  cases e <;> grind [owner?, Option.map_eq_some_iff]

/-- The owner of an entity of a loaded class is one too. -/
theorem Entity.Loaded.owner {r : Repository} {p : Program} {e owner : Entity}
    (loaded : e.Loaded r) (owns : p.owner? e = some owner) : owner.Loaded r := by
  cases foreign : e.isForeign with
  | false => exact loaded_of_not_foreign ((Program.height_owner owns).2.trans foreign)
  | true =>
    cases e
    case foreignField | foreignMethod => cases owns; exact loaded
    case foreignClass => cases owns
    all_goals cases foreign

/-! ## Meeting needs -/

namespace Need

variable {r r' : Repository}

/-- The name of the class that a need asks the repository for. -/
def className? : Need → Option String
  | .foreignClass name => some name
  | .foreignMember _ imported _ => some imported.className
  | _ => none

/-- Meeting a need makes the one request that the need names. -/
theorem repository_meet (need : Need) (r : Repository) :
    (need.meet r).repository =
      match need.className? with
      | some name => (r.tryLoad name).2
      | none => r := by
  cases need with
  | entity target => rfl
  | overridden method => rfl
  | foreignClass name =>
    rcases loading : r.tryLoad name with ⟨_ | id, r₁⟩ <;> simp [meet, className?, loading]
  | foreignMember kind imported requester =>
    rcases loading : r.tryLoad imported.className with ⟨_ | id, r₁⟩
    · simp [meet, className?, loading]
    · rcases target : foreignTarget? r₁ kind imported id with _ | e <;>
        simp [meet, className?, loading, target]

/-- What a request keeps, meeting a need keeps. -/
theorem keeps_meet {P : Repository → Prop} (request : ∀ r name, P r → P (r.tryLoad name).2)
    (need : Need) (start : P r) : P (need.meet r).repository := by
  rw [repository_meet]
  split
  · exact request r _ start
  · exact start

theorem consistent_meet (need : Need) (consistent : r.Consistent) :
    (need.meet r).repository.Consistent :=
  keeps_meet (fun _ name consistent => consistent.tryLoad name) need consistent

/-- The members of a loaded class do not change. -/
theorem foreignTarget?_of_extends (h : r.Extends r') {id : ClassId} (loaded : (r.class? id).isSome)
    (kind : ForeignKind) (imported : MemberImport) :
    foreignTarget? r' kind imported id = foreignTarget? r kind imported id := by
  obtain ⟨c, found⟩ := Option.isSome_iff_exists.1 loaded
  cases kind <;>
    simp [foreignTarget?, Repository.findField?, Repository.findMethod?, found, h.class?_eq found]

/-- A need that was met gives the same steps whenever it is met again, and loads nothing more. -/
theorem meet_of_extends (need : Need) (consistent : r.Consistent)
    (h : (need.meet r).repository.Extends r') :
    need.meet r' = { need.meet r with repository := r' } := by
  rw [repository_meet] at h
  cases need with
  | entity target => rfl
  | overridden method => rfl
  | foreignClass name =>
    have again := Repository.tryLoad_of_extends h
    rcases loading : r.tryLoad name with ⟨_ | id, r₁⟩ <;>
      simp [meet, loading, again]
  | foreignMember kind imported requester =>
    have again := Repository.tryLoad_of_extends h
    rcases loading : r.tryLoad imported.className with ⟨_ | id, r₁⟩
    · simp [meet, loading, again]
    · have loaded := consistent.isSome_class?_tryLoad (by rw [loading])
      -- The class is loaded by now, so its members are found where they were.
      have same : foreignTarget? r' kind imported id =
          foreignTarget? (r.tryLoad _).2 kind imported id :=
        foreignTarget?_of_extends h loaded kind imported
      rw [loading] at same
      rcases target : foreignTarget? r₁ kind imported id with _ | e <;>
        simp [meet, loading, again, same, target]

theorem keeps_supply {P : Repository → Prop} (request : ∀ r name, P r → P (r.tryLoad name).2)
    (needs : List Need) (start : P r) : P (supply r needs).repository := by
  induction needs generalizing r with
  | nil => exact start
  | cons need rest ih => exact ih (keeps_meet request need start)

theorem extends_supply (r : Repository) (needs : List Need) :
    r.Extends (supply r needs).repository :=
  keeps_supply (P := r.Extends)
    (fun _ name grown => grown.trans (Repository.extends_tryLoad _ name))
    needs (.refl r)

/-- Needs that were met give the same steps whenever they are met again, and load nothing more. -/
theorem supply_of_extends (needs : List Need) (consistent : r.Consistent)
    (h : (supply r needs).repository.Extends r') :
    supply r' needs = { supply r needs with repository := r' } := by
  -- The later repository extends the one after the first need as well as the one after all of them.
  induction needs generalizing r with
  | nil => rfl
  | cons need rest ih =>
    have first := meet_of_extends need consistent
      ((extends_supply (need.meet r).repository rest).trans h)
    have others := ih (consistent_meet need consistent) h
    simp only [supply, first, others]

/-! ## Settled needs -/

/-- The repository has answered what the need asks it for. -/
def Settled (r : Repository) (need : Need) : Prop := (need.meet r).repository = r

/-- A need that was met is settled from then on. -/
theorem settled_of_extends {need : Need} (h : (need.meet r).repository.Extends r') :
    need.Settled r' := by
  rw [repository_meet] at h
  rw [Settled, repository_meet]
  cases asks : need.className? with
  | none => rfl
  | some name =>
    rw [asks] at h
    simp only [Repository.tryLoad_of_extends h]

theorem settled_of_supply {needs : List Need} (h : (supply r needs).repository.Extends r') :
    ∀ need ∈ needs, need.Settled r' := by
  induction needs generalizing r with
  | nil => simp
  | cons need rest ih =>
    refine List.forall_mem_cons.2 ⟨?_, ih h⟩
    exact settled_of_extends ((extends_supply _ rest).trans h)

/-- Settled needs are met one by one, each of them in the same repository. -/
theorem supply_of_settled {needs : List Need} (settled : ∀ need ∈ needs, need.Settled r) :
    supply r needs =
      { steps := needs.flatMap fun need => (need.meet r).steps
        repository := r
        diagnostics := needs.flatMap fun need => (need.meet r).diagnostics } := by
  induction needs with
  | nil => rfl
  | cons need rest ih =>
    obtain ⟨first, others⟩ := List.forall_mem_cons.1 settled
    rw [Settled] at first
    simp only [supply, first, ih others, List.flatMap_cons]

/-! ## Needs inside the program -/

/-- What the rule of `e` may ask for: entities of the program, foreign classes and members by name,
and the method that `e` itself overrides. -/
def Allowed (e : Entity) : Need → Prop
  | .entity target => target.isForeign = false
  | .overridden method => e = .method method
  | _ => True

/-- A need of `e` that stays inside the program: it names an entity of the program or the method
that `e` itself overrides. -/
def Domestic (e : Entity) : Need → Prop
  | .entity target => target.isForeign = false
  | .overridden method => e = .method method
  | _ => False

/-- A need of `e` that stays inside the program and names no attribute. -/
def Inherent (e : Entity) : Need → Prop
  | .entity target => target.isInherent
  | .overridden method => e = .method method
  | _ => False

theorem Inherent.domestic {e : Entity} {need : Need} (h : need.Inherent e) : need.Domestic e := by
  cases need with
  | entity target => exact Entity.not_foreign_of_isInherent h
  | overridden method => exact h
  | _ => exact h.elim

theorem Domestic.allowed {e : Entity} {need : Need} (h : need.Domestic e) : need.Allowed e := by
  cases need with
  | entity target => exact h
  | overridden method => exact h
  | _ => exact h.elim

/-- The needs of `e` are domestic but for some in the middle, which may cross the border of the
program. -/
def Encloses (e : Entity) (needs crossings : List Need) : Prop :=
  ∃ before after, needs = before ++ crossings ++ after ∧ (∀ need ∈ before, need.Domestic e) ∧
    ∀ need ∈ after, need.Domestic e

theorem Encloses.subset {e : Entity} {needs crossings : List Need}
    (h : Encloses e needs crossings) :
    crossings ⊆ needs := by
  obtain ⟨before, after, rfl, -, -⟩ := h
  intro need crossing
  exact List.mem_append_left _ (List.mem_append_right _ crossing)

/-- What domestic needs do not contribute to, only the crossings contribute to. -/
theorem Encloses.flatMap_eq {α : Type} {e : Entity} {needs crossings : List Need}
    {f : Need → List α} (h : Encloses e needs crossings)
    (none : ∀ need, need.Domestic e → f need = []) :
    needs.flatMap f = crossings.flatMap f := by
  obtain ⟨before, after, rfl, first, last⟩ := h
  have left : before.flatMap f = [] :=
    List.flatMap_eq_nil_iff.2 fun need listed => none need (first need listed)
  have right : after.flatMap f = [] :=
    List.flatMap_eq_nil_iff.2 fun need listed => none need (last need listed)
  rw [List.flatMap_append, List.flatMap_append, left, right, List.nil_append, List.append_nil]

/-- An allowed need asks for an entity of a loaded class or of the program. -/
theorem loaded_of_meet {e : Entity} {need : Need} (allowed : need.Allowed e)
    (consistent : r.Consistent) {target : Entity} (wanted : .mark target ∈ (need.meet r).steps) :
    target.Loaded (need.meet r).repository := by
  cases need with
  | entity native =>
    obtain rfl : target = native := by simpa [meet] using wanted
    exact Entity.loaded_of_not_foreign allowed
  | overridden method => simp [meet] at wanted
  | foreignClass name =>
    rcases loading : r.tryLoad name with ⟨_ | id, r₁⟩
    · simp [meet, loading] at wanted
    · obtain rfl : target = .foreignClass id := by simpa [meet, loading] using wanted
      have loaded := consistent.isSome_class?_tryLoad (by rw [loading])
      simp only [meet, loading] at loaded ⊢
      exact loaded
  | foreignMember kind imported requester =>
    rcases loading : r.tryLoad imported.className with ⟨_ | id, r₁⟩
    · simp [meet, loading] at wanted
    · have loaded := consistent.isSome_class?_tryLoad (by rw [loading])
      rw [loading] at loaded
      rcases found : foreignTarget? r₁ kind imported id with _ | member
      · obtain rfl : target = .foreignClass id := by simpa [meet, loading, found] using wanted
        simp only [meet, loading, found]
        exact loaded
      · have either : target = .foreignClass id ∨ target = member := by
          simpa [meet, loading, found] using wanted
        have inside : member.Loaded r₁ := by
          cases kind <;>
          · obtain ⟨position, -, rfl⟩ := Option.map_eq_some_iff.1 found
            exact loaded
        simp only [meet, loading, found]
        rcases either with rfl | rfl
        · exact loaded
        · exact inside

/-- Allowed needs ask for entities of loaded classes or of the program. -/
theorem loaded_of_supply {e : Entity} {needs : List Need} (allowed : ∀ need ∈ needs, need.Allowed e)
    (consistent : r.Consistent) {target : Entity} (wanted : .mark target ∈ (supply r needs).steps) :
    target.Loaded (supply r needs).repository := by
  induction needs generalizing r with
  | nil => cases wanted
  | cons need rest ih =>
    rw [List.forall_mem_cons] at allowed
    rcases List.mem_append.1 wanted with first | others
    · exact (loaded_of_meet allowed.1 consistent first).mono (extends_supply _ rest)
    · exact ih allowed.2 (consistent_meet need consistent) others

/-- A step towards an overridden method comes from the need for it. -/
theorem markOverridden_mem_meet {need : Need} {method : MethodId} :
    .markOverridden method ∈ (need.meet r).steps ↔ need = .overridden method := by
  cases need with
  | entity target => simp [meet]
  | overridden other => simp [meet, eq_comm]
  | foreignClass name =>
    rcases loading : r.tryLoad name with ⟨_ | id, r₁⟩ <;> simp [meet, loading]
  | foreignMember kind imported requester =>
    rcases loading : r.tryLoad imported.className with ⟨_ | id, r₁⟩
    · simp [meet, loading]
    · rcases found : foreignTarget? r₁ kind imported id with _ | member <;>
        simp [meet, loading, found]

theorem markOverridden_mem_supply {needs : List Need} {method : MethodId} :
    .markOverridden method ∈ (supply r needs).steps ↔ .overridden method ∈ needs := by
  induction needs generalizing r with
  | nil => simp [supply]
  | cons need rest ih =>
    simp only [supply, List.mem_append, markOverridden_mem_meet, ih, List.mem_cons]
    rw [eq_comm]

/-- A step towards an entity of the program comes from the need that names it. -/
theorem mark_mem_meet {need : Need} {target : Entity} (native : target.isForeign = false) :
    .mark target ∈ (need.meet r).steps ↔ need = .entity target := by
  cases need with
  | entity other => simp [meet, eq_comm]
  | overridden method => simp [meet]
  | foreignClass name =>
    rcases loading : r.tryLoad name with ⟨_ | id, r₁⟩
    · simp [meet, loading]
    · have outside : target ≠ .foreignClass id := by rintro rfl; cases native
      simp [meet, loading, outside]
  | foreignMember kind imported requester =>
    rcases loading : r.tryLoad imported.className with ⟨_ | id, r₁⟩
    · simp [meet, loading]
    · have outside : target ≠ .foreignClass id := by rintro rfl; cases native
      rcases found : foreignTarget? r₁ kind imported id with _ | member
      · simp [meet, loading, found, outside]
      · have beyond : target ≠ member := by
          rintro rfl
          cases kind <;>
          · obtain ⟨position, -, rfl⟩ := Option.map_eq_some_iff.1 found
            cases native
        simp [meet, loading, found, outside, beyond]

theorem mark_mem_supply_iff {needs : List Need} {target : Entity}
    (native : target.isForeign = false) :
    .mark target ∈ (supply r needs).steps ↔ .entity target ∈ needs := by
  induction needs generalizing r with
  | nil => simp [supply]
  | cons need rest ih =>
    simp only [supply, List.mem_append, mark_mem_meet native, ih, List.mem_cons]
    rw [eq_comm]

end Need

end Liveset
