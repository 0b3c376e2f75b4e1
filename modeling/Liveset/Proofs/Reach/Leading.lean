import Liveset.Proofs.Reach.Calls

/-!
# Base types follow at once

The first step of most types leads to another type: a definition without generic parameters starts
with its base type, a derived type with its element, a reference with what it denotes. Types have no
owners, so nothing comes between a visit and its first step: the type that leads on is reached, or
it is the very next thing to be marked (`Led`). Once anything else is at the top of the stack, the
base chain of every reached type is reached as far as it is led (`isReached_of_mem_baseTypes`).
-/

set_option autoImplicit false

namespace Liveset

open Worklist

/-- Does the definition have generic parameters? Its rule asks for their support first. -/
def Program.isGeneric (p : Program) (id : TypeId) : Bool :=
  (p.typeDefinition? id).any fun d => !d.genericParameters.isEmpty

/-- The type that the first step of a type leads to. -/
def Program.leading? (p : Program) (id : TypeId) : Option TypeId :=
  match p.type? id with
  | some (.definition d) => if d.genericParameters.isEmpty then d.baseType else none
  | some (.specification s) => s.element?
  | some (.reference _) => p.resolveType? id
  | some (.genericParameter _) | none => none

theorem Scene.needs_of_leading {scene : Scene} {r : Repository} {id next : TypeId}
    {needs : List Need} (leads : scene.program.leading? id = some next)
    (asked : scene.needs r (.type id) = .ok needs) :
    ∃ rest, needs = .entity (.type next) :: rest := by
  simp only [Scene.needs, typeRule] at asked
  unfold Program.leading? at leads
  split at leads
  · rename_i d found
    rw [found] at asked
    obtain ⟨generic, special, first, -, rfl⟩ := typeDefinitionRule_eq_ok asked
    split at leads
    · rename_i plain
      rw [List.isEmpty_iff.1 plain] at first
      cases first
      rw [leads]
      exact ⟨_, rfl⟩
    · cases leads
  · rename_i s found
    rw [found] at asked
    cases asked
    cases s <;> cases leads <;> exact ⟨_, rfl⟩
  · rename_i name found
    rw [found] at asked
    cases asked
    rw [leads]
    exact ⟨_, rfl⟩
  · cases leads
  · cases leads

/-- The steps of a type start with the type that it leads to. -/
theorem Scene.steps_of_leading {scene : Scene} {r : Repository} {id next : TypeId} {x : Expansion}
    (leads : scene.program.leading? id = some next) (h : scene.expand r (.type id) = .ok x) :
    ∃ rest, x.steps = .mark (.type next) :: rest := by
  obtain ⟨needs, asked, rfl⟩ := expand_eq_ok h
  obtain ⟨rest, rfl⟩ := needs_of_leading leads asked
  exact ⟨_, rfl⟩

/-! ## Leads along a run -/

/-- The next thing that the stack asks for is the type. -/
def Leads (id : TypeId) : List Frame → Prop
  | .pending _ e :: _ => e = .type id
  | .expanding _ (step :: _) :: _ => step = .mark (.type id)
  | _ => False

/-- What a reached type leads to is reached, or the top of the stack asks for it next. -/
def Led (p : Program) (m : Machine) : Prop :=
  ∀ id next, m.state.isReached (.type id) → p.leading? id = some next →
    m.state.isReached (.type next) ∨ Leads next m.stack

theorem Led.move {scene : Scene} {m m' : Machine} (h : Led scene.program m)
    (move : Move scene m m') : Led scene.program m' := by
  intro id next reached leads
  cases move with
  | reached known =>
    rcases h id next reached leads with done | top
    · exact .inl done
    · cases top
      exact .inl known
  | owner new missing =>
    rcases h id next reached leads with done | top
    · exact .inl done
    · -- The top frame asks for a type, and types have no owner.
      cases top
      cases (State.unreachedOwner?_eq_some.1 missing).1
  | @visit s s' source e steps below new free visited =>
    -- The visited type puts its own lead on top; a lead that was on top is what is visited.
    rcases (State.isReached_visit visited).1 reached with rfl | before
    · obtain ⟨x, applied, rfl, -⟩ := State.visit_eq_ok visited
      obtain ⟨rest, first⟩ := Scene.steps_of_leading leads applied
      rw [first]
      exact .inr rfl
    · left
      apply (State.isReached_visit visited).2
      rcases h id next before leads with done | top
      · exact .inr done
      · exact .inl (Eq.symm top)
  | finish =>
    rcases h id next reached leads with done | top
    · exact .inl done
    · cases top
  | skip idle =>
    rcases h id next reached leads with done | top
    · exact .inl done
    · cases top
      cases idle
  | take asked =>
    rcases h id next reached leads with done | top
    · exact .inl done
    · cases top
      cases asked
      exact .inr rfl

/-- What every reached type leads to is reached. -/
def State.FollowsLeads (p : Program) (s : State) : Prop :=
  ∀ id next, s.isReached (.type id) → p.leading? id = some next → s.isReached (.type next)

/-- With anything but a lead at the top of the stack, all leads have been followed. -/
theorem Led.followsLeads {p : Program} {m : Machine} (h : Led p m)
    (calm : ∀ next, ¬ Leads next m.stack) : m.state.FollowsLeads p := by
  intro id next reached leads
  rcases h id next reached leads with done | top
  · exact done
  · exact absurd top (calm next)

/-- Leads are followed all along calls that succeed. -/
theorem Session.Succeeds.led {session : Session} {calls : List Call} (h : session.Succeeds calls)
    (start : session.state.FollowsLeads session.scene.program) {m : Machine}
    (through : session.PassesThrough calls m) : Led session.scene.program m := by
  refine (h.keeps Led.move (fun s e _ led => ?_) (fun _ led => led) ?_).2 m through
  · have followed := led.followsLeads fun next top => top
    exact fun id next reached leads => .inl (followed id next reached leads)
  · exact fun id next reached leads => .inl (start id next reached leads)

/-! ## The base chain -/

namespace State.FollowsLeads

variable {p : Program} {s : State}

/-- What a reached type denotes is reached. -/
theorem isReached_resolved (h : s.FollowsLeads p) {fuel : Nat} {id target : TypeId}
    (reached : s.isReached (.type id)) (resolved : p.resolveTypeWithin fuel id = some target) :
    s.isReached (.type target) := by
  induction fuel generalizing id with
  | zero => cases resolved
  | succ fuel ih =>
    rw [Program.resolveTypeWithin] at resolved
    split at resolved
    · cases resolved
      exact reached
    · -- A reference leads to what it denotes, in one step and with nothing in between.
      rename_i name found
      apply h id target reached
      rw [Program.leading?, found]
      simp only [Program.resolveType?, Program.resolutionDepth, Program.resolveTypeWithin, found]
      exact resolved
    · cases resolved
    · rename_i specification found
      obtain ⟨element, derived, resolved⟩ := Option.bind_eq_some_iff.1 resolved
      refine ih (h id element reached ?_) resolved
      rw [Program.leading?, found]
      exact derived
    · cases resolved

/-- The base type of a reached definition without generic parameters is reached. -/
theorem isReached_base (h : s.FollowsLeads p) {id base : TypeId} (reached : s.isReached (.type id))
    (plain : p.isGeneric id = false)
    (resolved : (p.baseReference? id).bind p.resolveType? = some base) :
    s.isReached (.type base) := by
  obtain ⟨reference, named, resolved⟩ := Option.bind_eq_some_iff.1 resolved
  obtain ⟨d, defined, named⟩ := Option.bind_eq_some_iff.1 named
  refine h.isReached_resolved (h id reference reached ?_) resolved
  have none : d.genericParameters.isEmpty = true := by
    simpa [Program.isGeneric, defined] using plain
  simp only [Program.leading?, Program.type?_of_typeDefinition? defined, none, if_true]
  exact named

theorem isReached_baseTypesFrom (h : s.FollowsLeads p) {fuel : Nat} {seen : List TypeId}
    {id target : TypeId} (reached : s.isReached (.type id)) (plain : p.isGeneric id = false)
    (member : target ∈ p.baseTypesFrom fuel seen (p.baseReference? id))
    (plainBelow : ∀ t ∈ (p.baseTypesFrom fuel seen (p.baseReference? id)).takeWhile (· ≠ target),
      p.isGeneric t = false) :
    s.isReached (.type target) := by
  -- Along the chain: the base type is reached, and is the next to be led on from.
  induction fuel generalizing seen id with
  | zero => cases member
  | succ fuel ih =>
    rw [Program.baseTypesFrom] at member plainBelow
    split at member
    · cases member
    · rename_i base resolved
      rw [resolved] at plainBelow
      have next := h.isReached_base reached plain resolved
      split at member
      · cases member
      · rename_i new
        simp only [new, if_false] at plainBelow
        by_cases same : base = target
        · exact same ▸ next
        · rw [List.takeWhile_cons_of_pos (by simpa using same), List.forall_mem_cons] at plainBelow
          rcases List.mem_cons.1 member with rfl | member
          · exact next
          · exact ih next plainBelow.1 member plainBelow.2

/-- A type on the base chain of a reached one is reached, if no type on the way has generic
parameters. -/
theorem isReached_of_mem_baseTypes (h : s.FollowsLeads p) {id target : TypeId}
    (reached : s.isReached (.type id)) (member : target ∈ p.baseTypes id)
    (plain : ∀ t ∈ id :: (p.baseTypes id).takeWhile (· ≠ target), p.isGeneric t = false) :
    s.isReached (.type target) := by
  rw [List.forall_mem_cons] at plain
  exact h.isReached_baseTypesFrom reached plain.1 member plain.2

end State.FollowsLeads

end Liveset
