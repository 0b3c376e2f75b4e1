import Liveset.Proofs.Program.Denotation
import Mathlib.Data.List.Chain
import Mathlib.Logic.Relation

/-!
# Chains of method instances

An instance leads to the method that it instantiates. A chain of instances ends at a definition, at
a reference or outside the arena, or it leads to a method that instantiates itself, at once or
through others (`Program.Endless`). A program has finitely many methods, so a chain that outlasts
them has met one of them twice. Hence `Program.isEndless`, which counts steps, finds the chains that
never end and no others.

Main statement: `isEndless_iff`.
-/

set_option autoImplicit false

namespace Liveset.Program

variable {p : Program} {id element : MethodId}

/-- The method `id` is an instance of `element`. -/
def Instantiates (p : Program) (id element : MethodId) : Prop :=
  ∃ arguments, p.method? id = some (.instance element arguments)

/-- The chain of instances from a method leads to one that instantiates itself, at once or through
others. -/
def Endless (p : Program) (id : MethodId) : Prop :=
  ∃ m, Relation.ReflTransGen p.Instantiates id m ∧ Relation.TransGen p.Instantiates m m

/-- An instance stands in the arena. -/
theorem Instantiates.lt_size (h : p.Instantiates id element) : id.index < p.methods.size := by
  obtain ⟨arguments, found⟩ := h
  exact (Array.getElem?_eq_some_iff.1 found).1

theorem outlasts_succ_iff {count : Nat} :
    p.outlasts (count + 1) id ↔
      ∃ element, p.Instantiates id element ∧ p.outlasts count element := by
  rw [outlasts]
  constructor
  · intro goesOn
    split at goesOn
    · rename_i element arguments found
      exact ⟨element, ⟨arguments, found⟩, goesOn⟩
    · cases goesOn
  · rintro ⟨element, ⟨arguments, found⟩, goesOn⟩
    rw [found]
    exact goesOn

/-! ## Endless chains -/

theorem Endless.exists_next (h : p.Endless id) :
    ∃ element, p.Instantiates id element ∧ p.Endless element := by
  obtain ⟨m, leads, cycle⟩ := h
  rcases leads.cases_head with rfl | ⟨element, first, rest⟩
  · obtain ⟨element, first, rest⟩ := Relation.TransGen.head'_iff.1 cycle
    exact ⟨element, first, id, rest, cycle⟩
  · exact ⟨element, first, m, rest, cycle⟩

theorem Endless.outlasts (h : p.Endless id) (count : Nat) : p.outlasts count id := by
  induction count generalizing id with
  | zero => rfl
  | succ count ih =>
    obtain ⟨element, first, endless⟩ := h.exists_next
    exact outlasts_succ_iff.2 ⟨element, first, ih endless⟩

/-- A chain that goes on after `count` steps has gone through instances only. -/
theorem exists_chain_of_outlasts {count : Nat} (goesOn : p.outlasts (count + 1) id) :
    ∃ chain : List MethodId, chain.length = count ∧ List.IsChain p.Instantiates (id :: chain) ∧
      ∀ m ∈ id :: chain, ∃ element, p.Instantiates m element := by
  induction count generalizing id with
  | zero =>
    obtain ⟨element, first, -⟩ := outlasts_succ_iff.1 goesOn
    exact ⟨[], rfl, .singleton id, List.forall_mem_singleton.2 ⟨element, first⟩⟩
  | succ count ih =>
    obtain ⟨element, first, rest⟩ := outlasts_succ_iff.1 goesOn
    obtain ⟨chain, length, linked, instances⟩ := ih rest
    refine ⟨element :: chain, by rw [List.length_cons, length], linked.cons_cons first, ?_⟩
    exact List.forall_mem_cons.2 ⟨⟨element, first⟩, instances⟩

/-- A chain that outlasts the methods of the program has met one of them twice. -/
theorem endless_of_outlasts (goesOn : p.outlasts (p.methods.size + 1) id) : p.Endless id := by
  obtain ⟨chain, length, linked, instances⟩ := exists_chain_of_outlasts goesOn
  have ahead : (id :: chain).Pairwise (Relation.TransGen p.Instantiates) :=
    (linked.imp fun _ _ => Relation.TransGen.single).pairwise
  have reached : ∀ m ∈ id :: chain, Relation.ReflTransGen p.Instantiates id m := by
    refine List.forall_mem_cons.2 ⟨.refl, fun m listed => ?_⟩
    exact ((List.pairwise_cons.1 ahead).1 m listed).to_reflTransGen
  by_contra ends
  -- Without a cycle the instances of the chain are different, and one more than there are methods.
  have nodup : (id :: chain).Nodup := by
    refine ahead.imp_of_mem fun listed _ later same => ends ⟨_, reached _ listed, ?_⟩
    rwa [← same] at later
  have atMost := length_le_size MethodId.mk nodup fun m listed => by
    obtain ⟨element, next⟩ := instances m listed
    exact ⟨m.index, next.lt_size, rfl⟩
  rw [List.length_cons, length] at atMost
  omega

/-- Counting steps finds the endless chains. -/
theorem isEndless_iff : p.isEndless id ↔ p.Endless id :=
  ⟨endless_of_outlasts, fun endless => endless.outlasts _⟩

/-- In a program where no method instantiates itself every chain of instances ends. -/
theorem isEndless_eq_false (acyclic : ∀ m, ¬ Relation.TransGen p.Instantiates m m) (id : MethodId) :
    p.isEndless id = false := by
  rw [← Bool.not_eq_true, isEndless_iff]
  rintro ⟨m, -, cycle⟩
  exact acyclic m cycle

end Liveset.Program
