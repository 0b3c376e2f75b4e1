import Liveset.Retention
import Mathlib.Data.List.Chain

/-!
# Lines of descent in the retention graph

Recording an entity that is new to the graph, from a source that is in it, adds one node and gives
that node its parent; the parents of the others stay as they are (`parent?_record`). Climbing from
an entity goes from parent to parent. The list that it leaves ends with the entity, and each entity
on it is the parent of the next one. If parents stand lower than their children in some ranking, the
climb comes to an entity without a parent before its fuel is spent (`exists_head_climb`).
-/

set_option autoImplicit false

namespace Liveset.Retention

variable {g : Retention} {source : Option Entity} {e : Entity}

/-! ## Recording -/

theorem nodes_record (new : e ∉ g.nodes)
    (known : ∀ origin, source = some origin → origin ∈ g.nodes) :
    (g.record source e).nodes = g.nodes.push e := by
  have added : (g.addNode e).nodes = g.nodes.push e := by rw [addNode, if_neg new]
  cases source with
  | none => exact added
  | some origin =>
    -- The source is a node already, and adding it once more changes nothing.
    have there : origin ∈ (g.addNode e).nodes := by
      rw [added]
      exact Array.mem_push_of_mem e (known origin rfl)
    simp only [record]
    rw [addNode, if_pos there]
    exact added

theorem edges_addNode (g : Retention) (e : Entity) : (g.addNode e).edges = g.edges := by
  unfold addNode
  split <;> rfl

/-- Recording an entity once more gives it a newer parent, if it has a source this time. -/
theorem parent?_record (g : Retention) (source : Option Entity) (e x : Entity) :
    (g.record source e).parent? x = if x = e then source.or (g.parent? x) else g.parent? x := by
  cases source with
  | none => simp [record, parent?, edges_addNode]
  | some origin =>
    by_cases same : x = e
    · subst same
      simp [record, parent?, edges_addNode]
    · simp [record, parent?, edges_addNode, same, Ne.symm same]

/-! ## Climbing -/

/-- Each entity of the list is the parent of the next one. -/
def Descends (g : Retention) (line : List Entity) : Prop :=
  line.IsChain fun parent child => g.parent? child = some parent

/-- What was there before the climb stays at the end. -/
theorem suffix_climb (g : Retention) (fuel : Nat) (e : Entity) (line : List Entity) :
    e :: line <:+ g.climb fuel e line := by
  induction fuel generalizing e line with
  | zero => exact List.suffix_rfl
  | succ fuel ih =>
    rw [climb]
    split
    · exact List.suffix_rfl
    · rename_i parent _
      exact (List.suffix_cons parent (e :: line)).trans (ih parent (e :: line))

theorem descends_climb {fuel : Nat} {line : List Entity} (h : g.Descends (e :: line)) :
    g.Descends (g.climb fuel e line) := by
  induction fuel generalizing e line with
  | zero => exact h
  | succ fuel ih =>
    rw [climb]
    split
    · exact h
    · rename_i parent above
      exact ih (List.isChain_cons_cons.2 ⟨above, h⟩)

/-- The climb comes to an entity without a parent, if parents rank lower than their children. What
passes on to parents holds of that entity. -/
theorem exists_head_climb {P : Entity → Prop} (rank : Entity → Nat)
    (up : ∀ child parent, g.parent? child = some parent → rank parent < rank child)
    (inherit : ∀ child parent, g.parent? child = some parent → P child → P parent) {fuel : Nat}
    (line : List Entity) (enough : rank e ≤ fuel) (start : P e) :
    ∃ first, (g.climb fuel e line).head? = some first ∧ g.parent? first = none ∧ P first := by
  induction fuel generalizing e line with
  | zero =>
    refine ⟨e, rfl, ?_, start⟩
    rw [Option.eq_none_iff_forall_ne_some]
    intro parent above
    have lower := up e parent above
    omega
  | succ fuel ih =>
    rw [climb]
    split
    · rename_i top
      exact ⟨e, rfl, top, start⟩
    · rename_i parent above
      have lower := up e parent above
      exact ih (e :: line) (by omega) (inherit e parent above start)

end Liveset.Retention
