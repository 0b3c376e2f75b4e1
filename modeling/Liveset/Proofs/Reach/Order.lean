import Liveset.Proofs.Reach.Visit

/-!
# The order of the reached entities

The order lists every reached entity once (`State.Ordered`), and with an entity its owner is reached
(`State.Owned`). Visits keep both. As the order only ever grows at its end, whatever precedes a
reached entity in a later order was reached already (`State.Precedes.isReached`). One can therefore
argue by induction along the order (`State.Ordered.induction`).
-/

set_option autoImplicit false

namespace Liveset

namespace State

variable {s s' : State} {e e' : Entity}

/-- The order lists the reached entities, each of them once. -/
structure Ordered (s : State) : Prop where
  nodup : s.order.toList.Nodup
  mem_iff : ∀ e, e ∈ s.order.toList ↔ s.isReached e

/-- Counting a root changes nothing that the order speaks of. -/
theorem Ordered.countRoot (h : s.Ordered) : Ordered { s with roots := s.roots + 1 } :=
  ⟨h.nodup, h.mem_iff⟩

/-- With an entity, its owner is reached. -/
def Owned (p : Program) (s : State) : Prop :=
  ∀ e owner, s.isReached e → p.owner? e = some owner → s.isReached owner

/-- The entity `e` stands before `e'` in the order. -/
def Precedes (s : State) (e e' : Entity) : Prop :=
  ∃ before after, s.order.toList = before ++ e' :: after ∧ e ∈ before

/-- Two entities that the order lists one after the other, with or without others between them. -/
theorem precedes_of_sublist (h : [e, e'].Sublist s.order.toList) : s.Precedes e e' := by
  obtain ⟨first, second, split, member, rest⟩ := List.cons_sublist_iff.1 h
  obtain ⟨before, after, rfl⟩ := List.append_of_mem (List.singleton_sublist.1 rest)
  refine ⟨first ++ before, after, ?_, List.mem_append_left _ member⟩
  rw [split, List.append_assoc]

/-- What precedes a reached entity in a later order is reached. -/
theorem Precedes.isReached (h : s'.Precedes e e') (grown : s.Grows s') (ordered : s.Ordered)
    (ordered' : s'.Ordered) (reached : s.isReached e') : s.isReached e := by
  obtain ⟨before, after, split, member⟩ := h
  have listed : e' ∈ s.order.toList := (ordered.mem_iff e').2 reached
  have once : e' ∉ before := by
    have nodup := ordered'.nodup
    rw [split, List.nodup_append] at nodup
    exact fun again => nodup.2.2 e' again e' List.mem_cons_self rfl
  -- Both lists are initial parts of the later order, and the shorter one lacks `e'`.
  have initial : before <+: s'.order.toList := ⟨_, split.symm⟩
  rcases List.prefix_or_prefix_of_prefix grown.order initial with short | long
  · exact absurd (short.subset listed) once
  · exact (ordered.mem_iff e).1 (long.subset member)

/-- What precedes an entity goes on preceding it. -/
theorem Precedes.mono (h : s.Precedes e e') (grown : s.Grows s') : s'.Precedes e e' := by
  obtain ⟨before, after, split, member⟩ := h
  obtain ⟨rest, same⟩ := grown.order
  refine ⟨before, after ++ rest, ?_, member⟩
  rw [← same, split, List.append_assoc, List.cons_append]

/-- Whatever is reached precedes the entity that is visited next. -/
theorem Ordered.precedes_visit {scene : Scene} {source : Option Entity}
    {verdict : Except SupportError (List Step)} (ordered : s.Ordered)
    (visited : s.visit scene source e' = (verdict, s')) (reached : s.isReached e) :
    s'.Precedes e e' := by
  refine ⟨s.order.toList, [], ?_, (ordered.mem_iff e).2 reached⟩
  rw [order_visit visited, Array.toList_push]

/-- Of two entities in the order, the one that precedes the other has the smaller position. -/
theorem Ordered.precedes_iff (ordered : s.Ordered) :
    s.Precedes e e' ↔
      e' ∈ s.order.toList ∧ s.order.toList.idxOf e < s.order.toList.idxOf e' := by
  constructor
  · rintro ⟨before, after, split, member⟩
    have nodup := ordered.nodup
    rw [split] at nodup ⊢
    have once : e' ∉ before := fun again =>
      (List.nodup_append.1 nodup).2.2 e' again e' List.mem_cons_self rfl
    have inside := List.idxOf_lt_length_of_mem member
    rw [List.idxOf_append, List.idxOf_append, if_pos member, if_neg once]
    refine ⟨List.mem_append_right _ List.mem_cons_self, ?_⟩
    omega
  · rintro ⟨listed, less⟩
    obtain ⟨before, after, split, once⟩ := List.eq_append_cons_of_mem listed
    refine ⟨before, after, split, ?_⟩
    by_cases inside : e ∈ before
    · exact inside
    · rw [split, List.idxOf_append, List.idxOf_append, if_neg inside, if_neg once,
        List.idxOf_cons_self] at less
      omega

theorem Ordered.isReached_of_precedes (ordered : s.Ordered) (h : s.Precedes e e') :
    s.isReached e := by
  obtain ⟨before, after, split, member⟩ := h
  rw [← ordered.mem_iff, split]
  exact List.mem_append_left _ member

theorem Ordered.precedes_trans (ordered : s.Ordered) {e'' : Entity} (h : s.Precedes e e')
    (h' : s.Precedes e' e'') : s.Precedes e e'' := by
  rw [ordered.precedes_iff] at h h' ⊢
  exact ⟨h'.1, Nat.lt_trans h.2 h'.2⟩

/-- What passes on from all that precedes an entity to the entity itself holds of everything
reached. -/
theorem Ordered.induction (ordered : s.Ordered) {P : Entity → Prop}
    (step : ∀ e, s.isReached e → (∀ e', s.Precedes e' e → P e') → P e) (e : Entity)
    (reached : s.isReached e) : P e := by
  induction position : s.order.toList.idxOf e using Nat.strongRecOn generalizing e with
  | _ n ih =>
    refine step e reached fun e' precedes => ?_
    have less := (ordered.precedes_iff.1 precedes).2
    exact ih _ (position ▸ less) e' (ordered.isReached_of_precedes precedes) rfl

end State

theorem keptByVisits_ordered (scene : Scene) : KeptByVisits scene State.Ordered := by
  intro s s' source e verdict visited new _ ordered
  have pushed := State.order_visit visited
  constructor
  · rw [pushed, Array.toList_push, List.nodup_append]
    refine ⟨ordered.nodup, by simp, fun x listed y member same => ?_⟩
    rw [same, List.mem_singleton.1 member] at listed
    exact new ((ordered.mem_iff e).1 listed)
  · intro x
    rw [pushed, Array.toList_push, List.mem_append, List.mem_singleton, ordered.mem_iff,
      State.isReached_visit visited]
    exact or_comm

theorem keptByVisits_owned (scene : Scene) : KeptByVisits scene (State.Owned scene.program) := by
  intro s s' source e verdict visited _ free owned x owner reached owns
  rw [State.isReached_visit visited] at reached ⊢
  rcases reached with rfl | before
  · exact .inr (free owner owns)
  · exact .inr (owned x owner before owns)

end Liveset
