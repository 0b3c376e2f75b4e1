import Liveset.Proofs.Reach.Expansion
import Liveset.Reach.State

/-!
# Visits

A visit reaches one entity and applies its rule (`State.visit_cases`). It loses nothing that the
state has found (`State.grows_visit`), and all it adds to the reached entities is the one it visits
(`State.isReached_visit`). A pass changes its state by visits only, of new entities whose owners are
reached; `KeptByVisits` says that such visits keep a property. Of the repository they keep whatever
a request for a class keeps (`keptByVisits_repository`).
-/

set_option autoImplicit false

namespace Liveset

namespace State

variable {scene : Scene} {s s' s'' : State} {source : Option Entity} {e x : Entity}
  {verdict : Except SupportError (List Step)}

/-- Nothing that `s` has found is lost in `s'`. -/
structure Grows (s s' : State) : Prop where
  reached : ∀ {e : Entity}, s.isReached e → s'.isReached e
  order : s.order.toList <+: s'.order.toList
  repository : s.repository.Extends s'.repository

theorem Grows.refl (s : State) : s.Grows s := ⟨id, List.prefix_rfl, .refl _⟩

theorem Grows.trans (h : s.Grows s') (h' : s'.Grows s'') : s.Grows s'' where
  reached known := h'.reached (h.reached known)
  order := h.order.trans h'.order
  repository := h.repository.trans h'.repository

theorem isReached_reach {p : Program} :
    (s.reach p source e).isReached x ↔ x = e ∨ s.isReached x := by
  simp only [reach, isReached, Std.TreeSet.contains_insert, Bool.or_eq_true, beq_iff_eq,
    Std.LawfulEqCmp.compare_eq_iff_eq]
  rw [eq_comm]

/-- A visit reaches the entity and applies its rule; if the rule fails, that is all. -/
theorem visit_cases (s : State) (scene : Scene) (source : Option Entity) (e : Entity) :
    (∃ error, scene.expand s.repository e = .error error ∧
      s.visit scene source e = (.error error, s.reach scene.program source e)) ∨
    (∃ expansion, scene.expand s.repository e = .ok expansion ∧
      s.visit scene source e = (.ok expansion.steps,
        ((s.reach scene.program source e).noteNullable scene.program e).absorb expansion)) := by
  have same : (s.reach scene.program source e).repository = s.repository := rfl
  cases applied : scene.expand s.repository e with
  | error error => exact .inl ⟨error, rfl, by rw [visit, applyRule, same, applied]⟩
  | ok expansion => exact .inr ⟨expansion, rfl, by rw [visit, applyRule, same, applied]⟩

theorem noteNullable_frame (s : State) (p : Program) (e : Entity) :
    (s.noteNullable p e).reached = s.reached ∧ (s.noteNullable p e).order = s.order := by
  cases e with
  | type id =>
    simp only [noteNullable]
    split <;> exact ⟨rfl, rfl⟩
  | _ => exact ⟨rfl, rfl⟩

/-- Beside what reaching the entity enters into the records, a visit changes only the repository,
the wrapped types and the diagnostics. -/
theorem exists_visit_eq (h : s.visit scene source e = (verdict, s')) :
    ∃ repository nullable diagnostics,
      s' = { s.reach scene.program source e with repository, nullable, diagnostics } := by
  rcases visit_cases s scene source e with ⟨error, -, visited⟩ | ⟨expansion, -, visited⟩ <;>
    rw [visited] at h <;> cases h
  · exact ⟨_, _, _, rfl⟩
  · cases e with
    | type id =>
      simp only [noteNullable]
      split <;> exact ⟨_, _, _, rfl⟩
    | _ => exact ⟨_, _, _, rfl⟩

theorem isReached_visit (h : s.visit scene source e = (verdict, s')) :
    s'.isReached x ↔ x = e ∨ s.isReached x := by
  rcases visit_cases s scene source e with ⟨error, -, visited⟩ | ⟨expansion, -, visited⟩ <;>
    rw [visited] at h <;> cases h
  · exact isReached_reach
  · simp only [isReached, absorb, (noteNullable_frame _ _ _).1]
    exact isReached_reach

theorem order_visit (h : s.visit scene source e = (verdict, s')) : s'.order = s.order.push e := by
  rcases visit_cases s scene source e with ⟨error, -, visited⟩ | ⟨expansion, -, visited⟩ <;>
    rw [visited] at h <;> cases h
  · rfl
  · simp only [absorb, (noteNullable_frame _ _ _).2]
    rfl

theorem visit_eq_ok {steps : List Step} (h : s.visit scene source e = (.ok steps, s')) :
    ∃ expansion, scene.expand s.repository e = .ok expansion ∧ expansion.steps = steps ∧
      s'.repository = expansion.repository := by
  rcases visit_cases s scene source e with ⟨error, -, visited⟩ | ⟨expansion, applied, visited⟩ <;>
    rw [visited] at h <;> cases h
  exact ⟨expansion, applied, rfl, rfl⟩

theorem diagnostics_noteNullable (s : State) (p : Program) (e : Entity) :
    (s.noteNullable p e).diagnostics = s.diagnostics := by
  cases e with
  | type id =>
    simp only [noteNullable]
    split <;> rfl
  | _ => rfl

/-- A visit that succeeds adds the diagnostics of the rule. -/
theorem diagnostics_visit {steps : List Step} (h : s.visit scene source e = (.ok steps, s'))
    {expansion : Expansion} (applied : scene.expand s.repository e = .ok expansion) :
    s'.diagnostics.toList = s.diagnostics.toList ++ expansion.diagnostics := by
  rcases visit_cases s scene source e with ⟨error, -, visited⟩ | ⟨same, again, visited⟩ <;>
    rw [visited] at h <;> cases h
  rw [applied] at again
  cases again
  simp only [absorb, diagnostics_noteNullable, Array.toList_append]
  rfl

theorem visit_eq_error {error : SupportError} (h : s.visit scene source e = (.error error, s')) :
    scene.expand s.repository e = .error error ∧ s'.repository = s.repository := by
  rcases visit_cases s scene source e with ⟨error', applied, visited⟩ | ⟨expansion, -, visited⟩ <;>
    rw [visited] at h <;> cases h
  exact ⟨applied, rfl⟩

theorem grows_visit (h : s.visit scene source e = (verdict, s')) : s.Grows s' where
  reached known := (isReached_visit h).2 (.inr known)
  order := by
    rw [order_visit h, Array.toList_push]
    exact List.prefix_append _ _
  repository := by
    cases verdict with
    | error error =>
      rw [(visit_eq_error h).2]
      exact .refl _
    | ok steps =>
      obtain ⟨expansion, applied, -, same⟩ := visit_eq_ok h
      rw [same]
      exact Scene.extends_expand applied

/-- What a request to the repository keeps, a visit keeps. -/
theorem keeps_visit {P : Repository → Prop} (request : ∀ r name, P r → P (r.tryLoad name).2)
    (h : s.visit scene source e = (verdict, s')) (start : P s.repository) : P s'.repository := by
  cases verdict with
  | error error =>
    rw [(visit_eq_error h).2]
    exact start
  | ok steps =>
    obtain ⟨x, applied, -, same⟩ := visit_eq_ok h
    rw [same]
    exact Scene.keeps_expand request start applied

theorem consistent_visit (h : s.visit scene source e = (verdict, s'))
    (consistent : s.repository.Consistent) : s'.repository.Consistent :=
  keeps_visit (fun _ name consistent => consistent.tryLoad name) h consistent

/-- No owner is in the way of an entity: it has none, or its owner is reached. -/
theorem unreachedOwner?_eq_none {p : Program} :
    s.unreachedOwner? p e = none ↔ ∀ owner, p.owner? e = some owner → s.isReached owner := by
  simp [unreachedOwner?, Option.filter_eq_none_iff]

theorem unreachedOwner?_eq_some {p : Program} {owner : Entity} :
    s.unreachedOwner? p e = some owner ↔ p.owner? e = some owner ∧ ¬ s.isReached owner := by
  simp [unreachedOwner?, Option.filter_eq_some_iff]

/-- A method asks for the method it overrides if the type that declares that one is reached. -/
theorem overriddenTarget?_eq_some {p : Program} {method : MethodId} {target : Entity} :
    s.overriddenTarget? p method = some target ↔
      ∃ base, (p.overridden? method = some base ∧ ∃ declaring,
        p.methodDeclaringType? base = some declaring ∧ s.isReached (.type declaring)) ∧
        target = .method base := by
  simp only [overriddenTarget?, Option.bind_eq_bind, Option.bind_eq_some_iff,
    Option.ite_none_right_eq_some, Option.some.injEq]
  grind

end State

/-- The property passes from a state to the one that a visit leaves, whenever the entity visited is
new and its owner is reached. -/
def KeptByVisits (scene : Scene) (P : State → Prop) : Prop :=
  ∀ (s s' : State) (source : Option Entity) (e : Entity)
    (verdict : Except SupportError (List Step)),
    s.visit scene source e = (verdict, s') → ¬ s.isReached e →
    (∀ owner, scene.program.owner? e = some owner → s.isReached owner) → P s → P s'

theorem keptByVisits_grows (scene : Scene) (s : State) : KeptByVisits scene s.Grows :=
  fun _ _ _ _ _ visited _ _ grown => grown.trans (State.grows_visit visited)

/-- What a request to the repository keeps, visits keep. -/
theorem keptByVisits_repository (scene : Scene) {P : Repository → Prop}
    (request : ∀ r name, P r → P (r.tryLoad name).2) : KeptByVisits scene fun s => P s.repository :=
  fun _ _ _ _ _ visited _ _ start => State.keeps_visit request visited start

theorem keptByVisits_consistent (scene : Scene) : KeptByVisits scene (·.repository.Consistent) :=
  keptByVisits_repository scene fun _ name consistent => consistent.tryLoad name

end Liveset
