import Liveset.Proofs.Program.Denotation
import Mathlib.Logic.Relation

/-!
# The base chain

The walk along the base types has a bound on its steps and stops at a type it has seen. Neither cuts
anything off: the walk finds every type that can be reached by going from a definition to what its
base type denotes (`mem_cons_baseTypes_iff`).

Every type that the walk has left is a definition, and no two of them are the same. So they are no
more than the nodes of the program, and the bound is not met. A type seen before has its base type
in the chain already.
-/

set_option autoImplicit false

namespace Liveset.Program

variable {p : Program}

/-- The base type of the definition denotes the type. -/
def HasBase (p : Program) (id base : TypeId) : Prop :=
  (p.baseReference? id).bind p.resolveType? = some base

instance (p : Program) (id base : TypeId) : Decidable (p.HasBase id base) :=
  inferInstanceAs (Decidable (_ = some base))

theorem HasBase.unique {id base base' : TypeId} (above : p.HasBase id base)
    (above' : p.HasBase id base') : base = base' :=
  Option.some.inj (above.symm.trans above')

/-- A type with a base type is a node of the program. -/
theorem HasBase.index_lt {id base : TypeId} (above : p.HasBase id base) :
    id.index < p.types.size := by
  obtain ⟨reference, named, -⟩ := Option.bind_eq_some_iff.1 above
  obtain ⟨d, defined, -⟩ := Option.bind_eq_some_iff.1 named
  exact lt_size_of_type? (type?_of_typeDefinition? defined)

/-! ## One step of the walk -/

theorem baseTypesFrom_of_new {fuel : Nat} {seen : List TypeId} {id base : TypeId}
    (above : p.HasBase id base) (new : base ∉ seen) :
    p.baseTypesFrom (fuel + 1) seen (p.baseReference? id) =
      base :: p.baseTypesFrom fuel (base :: seen) (p.baseReference? base) := by
  rw [baseTypesFrom, above]
  exact if_neg new

theorem baseTypesFrom_of_seen {fuel : Nat} {seen : List TypeId} {id : TypeId}
    (old : ∀ base, p.HasBase id base → base ∈ seen) :
    p.baseTypesFrom fuel seen (p.baseReference? id) = [] := by
  cases fuel with
  | zero => rfl
  | succ fuel =>
    rw [baseTypesFrom]
    split
    · rfl
    · rename_i base above
      exact if_pos (old base above)

/-! ## The whole walk -/

section

variable {id : TypeId} {earlier : List TypeId}
    (left : ∀ a ∈ earlier, ∃ b ∈ id :: earlier, p.HasBase a b)

include left

/-- With as many types seen as the program has nodes, the walk cannot go on to a new one. -/
theorem mem_of_full (nodup : (id :: earlier).Nodup) (full : p.types.size ≤ earlier.length)
    {base : TypeId} (above : p.HasBase id base) : base ∈ id :: earlier := by
  -- All types seen have a base type, so they are different nodes, and one more than there can be.
  have inside : ∀ a ∈ id :: earlier, a.index < p.types.size := by
    rw [List.forall_mem_cons]
    refine ⟨above.index_lt, fun a listed => ?_⟩
    obtain ⟨b, -, next⟩ := left a listed
    exact next.index_lt
  have atMost := length_le_size TypeId.mk nodup fun a listed => ⟨a.index, inside a listed, rfl⟩
  rw [List.length_cons] at atMost
  omega

/-- A walk that does not go on leaves the types seen closed under base types. -/
theorem mem_of_ends (ends : ∀ base, p.HasBase id base → base ∈ id :: earlier) {fuel : Nat}
    {a b : TypeId}
    (member : a ∈ id :: earlier ++ p.baseTypesFrom fuel (id :: earlier) (p.baseReference? id))
    (above : p.HasBase a b) :
    b ∈ id :: earlier ++ p.baseTypesFrom fuel (id :: earlier) (p.baseReference? id) := by
  rw [baseTypesFrom_of_seen ends, List.append_nil] at member ⊢
  rcases List.mem_cons.1 member with rfl | before
  · exact ends b above
  · obtain ⟨b', seen, above'⟩ := left a before
    rwa [above.unique above']

end

/-- The types seen and the chain ahead of the last of them are closed under base types, if the types
seen before that one have theirs among those seen. -/
theorem mem_of_mem_baseTypesFrom {fuel : Nat} {id : TypeId} {earlier : List TypeId}
    (nodup : (id :: earlier).Nodup) (left : ∀ a ∈ earlier, ∃ b ∈ id :: earlier, p.HasBase a b)
    (room : p.types.size ≤ earlier.length + fuel) {a b : TypeId}
    (member : a ∈ id :: earlier ++ p.baseTypesFrom fuel (id :: earlier) (p.baseReference? id))
    (above : p.HasBase a b) :
    b ∈ id :: earlier ++ p.baseTypesFrom fuel (id :: earlier) (p.baseReference? id) := by
  induction fuel generalizing id earlier with
  | zero => exact mem_of_ends left (fun _ => mem_of_full left nodup room) member above
  | succ fuel ih =>
    by_cases ends : ∀ base, p.HasBase id base → base ∈ id :: earlier
    · exact mem_of_ends left ends member above
    · simp only [not_forall] at ends
      obtain ⟨base, next, new⟩ := ends
      -- The walk goes on with the new type seen as well, and the present one left.
      rw [baseTypesFrom_of_new next new, List.perm_middle.mem_iff] at member ⊢
      refine ih (List.nodup_cons.2 ⟨new, nodup⟩) ?_ (by rw [List.length_cons]; omega) member
      rw [List.forall_mem_cons]
      refine ⟨⟨base, List.mem_cons_self, next⟩, fun a listed => ?_⟩
      obtain ⟨b, seen, above⟩ := left a listed
      exact ⟨b, List.mem_cons_of_mem base seen, above⟩

theorem reflTransGen_of_mem_baseTypesFrom {fuel : Nat} {seen : List TypeId} {id target : TypeId}
    (member : target ∈ p.baseTypesFrom fuel seen (p.baseReference? id)) :
    Relation.ReflTransGen p.HasBase id target := by
  induction fuel generalizing seen id with
  | zero => cases member
  | succ fuel ih =>
    rw [baseTypesFrom] at member
    split at member
    · cases member
    · rename_i base denoted
      have above : p.HasBase id base := denoted
      split at member
      · cases member
      · apply Relation.ReflTransGen.head above
        rcases List.mem_cons.1 member with rfl | later
        · exact .refl
        · exact ih later

/-- A type and its base chain are the types that can be reached from it by going from definitions to
what their base types denote, also where that leads in a circle. -/
theorem mem_cons_baseTypes_iff {id target : TypeId} :
    target ∈ id :: p.baseTypes id ↔ Relation.ReflTransGen p.HasBase id target := by
  constructor
  · intro member
    rcases List.mem_cons.1 member with rfl | later
    · exact .refl
    · exact reflTransGen_of_mem_baseTypesFrom later
  · intro path
    -- The walk starts with no type seen but the first one, and with a step for each node.
    induction path with
    | refl => exact List.mem_cons_self
    | tail _ above ih =>
      exact mem_of_mem_baseTypesFrom (List.nodup_singleton id)
        (fun a none => absurd none List.not_mem_nil) (by simp) ih above

end Liveset.Program
