import Liveset.Proofs.Reach.Completion
import Mathlib.Data.Finset.Card
import Mathlib.Data.Finset.Union

/-!
# Every frame can be dealt with

From every state, every frame has a completion (`exists_completes`), whatever cycles the program has
and whatever handles point outside their arenas.

Three things are counted, and their sum is the budget of a state: the nodes of the program that are
not reached, the loaded classes that are not reached, and the class names that a rule may ask for
and that have not been asked for. A rule that gives steps belongs to a node or to a loaded class;
visiting that one lowers the budget. Loading a class moves one unit from the third count to the
second. A visit without steps leaves no work behind, so it need not lower the budget. What remains
are the detours to owners, and these are at most two deep.
-/

set_option autoImplicit false

namespace Liveset

open Worklist (Frame)

/-! ## Nodes -/

/-- The entities of a program whose handle lies inside its arena. -/
def Program.nodes (p : Program) : Finset Entity :=
  (Finset.range p.types.size).image (fun i => .type ⟨i⟩) ∪
  (Finset.range p.methods.size).image (fun i => .method ⟨i⟩) ∪
  (Finset.range p.fields.size).image (fun i => .field ⟨i⟩) ∪
  (Finset.range p.properties.size).image (fun i => .property ⟨i⟩) ∪
  (Finset.range p.events.size).image (fun i => .event ⟨i⟩) ∪
  (Finset.range p.parameters.size).image (fun i => .parameter ⟨i⟩) ∪
  (Finset.range p.genericParameters.size).image (fun i => .genericParameter ⟨i⟩) ∪
  (Finset.range p.attributes.size).image (fun i => .attribute ⟨i⟩)

/-- Does the handle of the entity lie inside its arena? -/
def Program.contains (p : Program) : Entity → Bool
  | .type id => (p.type? id).isSome
  | .method id => (p.method? id).isSome
  | .field id => (p.field? id).isSome
  | .property id => (p.property? id).isSome
  | .event id => (p.event? id).isSome
  | .parameter id => (p.parameter? id).isSome
  | .genericParameter id => (p.genericParameter? id).isSome
  | .attribute id => (p.attribute? id).isSome
  | .foreignClass _ | .foreignField _ _ | .foreignMethod _ _ => false

theorem Program.mem_nodes {p : Program} {e : Entity} (inside : p.contains e) : e ∈ p.nodes := by
  rcases e with ⟨⟨i⟩⟩ | ⟨⟨i⟩⟩ | ⟨⟨i⟩⟩ | ⟨⟨i⟩⟩ | ⟨⟨i⟩⟩ | ⟨⟨i⟩⟩ | ⟨⟨i⟩⟩ | ⟨⟨i⟩⟩ | ⟨⟨i⟩⟩ |
      ⟨⟨i⟩, k⟩ | ⟨⟨i⟩, k⟩ <;>
    simp_all [contains, nodes, type?, method?, field?, property?, event?, parameter?,
      genericParameter?, attribute?]

/-- An entity of the program needs nothing if its handle lies outside the arena. -/
theorem Scene.needs_of_not_contains {scene : Scene} {r : Repository} {e : Entity}
    (native : e.isForeign = false) (outside : scene.program.contains e = false) :
    scene.needs r e = .ok [] := by
  cases e <;>
    simp_all [Program.contains, Entity.isForeign, needs, typeRule, methodRule, fieldRule,
      propertyRule, eventRule, parameterRule, genericParameterRule]

/-- An entity needs nothing unless it is a node of the program or a loaded class. -/
theorem Scene.mem_nodes_or_loaded {scene : Scene} {r : Repository} {e : Entity} {needs : List Need}
    (asked : scene.needs r e = .ok needs) (wanted : needs ≠ []) :
    e ∈ scene.program.nodes ∨ ∃ i < r.size, e = .foreignClass ⟨i⟩ := by
  cases native : e.isForeign with
  | false =>
    left
    apply Program.mem_nodes
    by_contra outside
    rw [needs_of_not_contains native (by simpa using outside)] at asked
    cases asked
    exact wanted rfl
  | true =>
    right
    cases e with
    | foreignClass id =>
      refine ⟨id.index, ?_, rfl⟩
      by_contra outside
      have missing : r.class? id = none := Array.getElem?_eq_none (Nat.le_of_not_lt outside)
      simp only [Scene.needs, missing] at asked
      cases asked
      exact wanted rfl
    | foreignField owner position | foreignMethod owner position =>
      cases asked
      exact absurd rfl wanted
    | _ => cases native

/-! ## Names of classes -/

/-- The normal names of the classes that some needs ask for. -/
def Need.names (needs : List Need) : Finset String :=
  (needs.filterMap Need.className?).toFinset.image normalizeClassName

/-- No rule can ask for a class whose normal name is not in `names`, now or after loading
classes. -/
structure Covers (scene : Scene) (names : Finset String) (r : Repository) : Prop where
  rules : ∀ (e : Entity) (needs : List Need), e.isForeign = false →
    scene.needs r e = .ok needs → Need.names needs ⊆ names
  parents : ∀ c : ClassFile, c ∈ r.loader.classes ∨ c ∈ r.classes →
    ∀ name ∈ c.parents, normalizeClassName name ∈ names

theorem Covers.names_subset {scene : Scene} {names : Finset String} {r : Repository}
    (covers : Covers scene names r) {e : Entity} {needs : List Need}
    (asked : scene.needs r e = .ok needs) : Need.names needs ⊆ names := by
  cases native : e.isForeign with
  | false => exact covers.rules e needs native asked
  | true =>
    intro name wanted
    cases e with
    | foreignClass id =>
      cases found : r.class? id with
      | none =>
        simp only [Scene.needs, found] at asked
        cases asked
        simp [Need.names] at wanted
      | some c =>
        simp only [Scene.needs, found] at asked
        cases asked
        obtain ⟨parent, listed, rfl⟩ : ∃ parent ∈ c.parents, normalizeClassName parent = name := by
          simpa [Need.names, Need.className?] using wanted
        exact covers.parents c (.inr (Array.mem_of_getElem? found)) parent listed
    | foreignField owner position | foreignMethod owner position =>
      cases asked
      simp [Need.names] at wanted
    | _ => cases native

/-- Classes from the same loader bring no new names. -/
theorem Covers.of_loader {scene : Scene} {names : Finset String} {r r' : Repository}
    (covers : Covers scene names r) (same : r'.loader = r.loader)
    (known : ∀ c ∈ r'.classes, c ∈ r.loader.classes ∨ c ∈ r.classes) : Covers scene names r' where
  rules e needs native asked := by
    apply covers.rules e needs native
    cases e
    case foreignClass => cases native
    all_goals exact asked
  parents c listed := by
    apply covers.parents c
    rcases listed with inLoader | loaded
    · exact .inl (same ▸ inLoader)
    · exact known c loaded

theorem Covers.tryLoad {scene : Scene} {names : Finset String} {r : Repository}
    (covers : Covers scene names r) (name : String) : Covers scene names (r.tryLoad name).2 := by
  unfold Repository.tryLoad
  split
  · exact covers
  · unfold Repository.ask
    split
    · rename_i c loading
      refine covers.of_loader ?_ fun c' loaded => ?_
      · rfl
      rcases Array.mem_push.1 loaded with before | rfl
      · exact .inr before
      · exact .inl (r.loader.mem_classes _ _ loading)
    · exact covers.of_loader rfl fun c => .inr

theorem Covers.supply {scene : Scene} {names : Finset String} {r : Repository}
    (covers : Covers scene names r) (needs : List Need) :
    Covers scene names (Need.supply r needs).repository := by
  induction needs generalizing r with
  | nil => exact covers
  | cons need rest ih =>
    apply ih
    rw [Need.repository_meet]
    split
    · exact covers.tryLoad _
    · exact covers

/-- What the rule of an entity of the program asks for, wherever it is asked. -/
def Scene.namesOf (scene : Scene) (e : Entity) : Finset String :=
  match scene.needs {} e with
  | .ok needs => Need.names needs
  | .error _ => ∅

/-- There are finitely many names to ask for. -/
theorem exists_covers (scene : Scene) (r : Repository) : ∃ names, Covers scene names r := by
  -- The names that the nodes ask for, and the parents of all classes that can ever be loaded.
  refine ⟨scene.program.nodes.biUnion scene.namesOf ∪
    ((r.loader.classes ++ r.classes.toList).flatMap ClassFile.parents).toFinset.image
      normalizeClassName, ?_, ?_⟩
  · intro e needs native asked name wanted
    -- The rule of an entity of the program does not look at the repository.
    have same : scene.needs {} e = .ok needs := by
      cases e
      case foreignClass => cases native
      all_goals exact asked
    rcases needs with _ | ⟨need, rest⟩
    · simp [Need.names] at wanted
    · rcases Scene.mem_nodes_or_loaded asked (List.cons_ne_nil _ _) with node | ⟨i, -, rfl⟩
      · refine Finset.mem_union_left _ (Finset.mem_biUnion.2 ⟨e, node, ?_⟩)
        simpa [Scene.namesOf, same] using wanted
      · cases native
  · intro c known name parent
    refine Finset.mem_union_right _ (Finset.mem_image_of_mem _ ?_)
    rw [List.mem_toFinset, List.mem_flatMap]
    refine ⟨c, ?_, parent⟩
    rw [List.mem_append, Array.mem_toList_iff]
    exact known

/-! ## What is left to do -/

/-- The classes that a repository has loaded. -/
def Repository.loaded (r : Repository) : Finset Entity :=
  (Finset.range r.size).image fun i => .foreignClass ⟨i⟩

/-- The nodes and loaded classes that are not reached. -/
def unreached (p : Program) (r : Repository) (reached : Std.TreeSet Entity) : Finset Entity :=
  (p.nodes ∪ r.loaded).filter fun e => ¬ reached.contains e

/-- The names that the repository has not been asked for. -/
def unasked (names : Finset String) (r : Repository) : Finset String :=
  names.filter fun name => r.answer? name = none

/-- What is left to do: entities to reach and names to ask for. A class that is loaded adds to the
entities, and its name is taken off the names. -/
def budget (p : Program) (names : Finset String) (r : Repository) (reached : Std.TreeSet Entity) :
    Nat :=
  (unreached p r reached).card + (unasked names r).card

section Budget

variable {p : Program} {names : Finset String} {r : Repository} {reached : Std.TreeSet Entity}

/-- Asking adds one class at most. -/
theorem loaded_ask (r : Repository) (key : String) :
    (r.ask key).2.loaded ⊆ insert (.foreignClass ⟨r.size⟩) r.loaded := by
  intro e h
  obtain ⟨i, inside, rfl⟩ := Finset.mem_image.1 h
  unfold Repository.ask at inside
  split at inside
  · have bound : i < r.size + 1 := by simpa [Repository.size] using inside
    rcases Nat.lt_succ_iff_lt_or_eq.1 bound with before | rfl
    · exact Finset.mem_insert_of_mem (Finset.mem_image_of_mem _ (Finset.mem_range.2 before))
    · exact Finset.mem_insert_self _ _
  · exact Finset.mem_insert_of_mem (Finset.mem_image_of_mem _ inside)

theorem card_unreached_ask (p : Program) (r : Repository) (reached : Std.TreeSet Entity)
    (key : String) :
    (unreached p (r.ask key).2 reached).card ≤ (unreached p r reached).card + 1 := by
  have inside : unreached p (r.ask key).2 reached ⊆
      insert (.foreignClass ⟨r.size⟩) (unreached p r reached) := by
    intro e h
    obtain ⟨either, new⟩ := Finset.mem_filter.1 h
    rw [Finset.mem_insert]
    rcases Finset.mem_union.1 either with node | listed
    · exact .inr (Finset.mem_filter.2 ⟨Finset.mem_union_left _ node, new⟩)
    · rcases Finset.mem_insert.1 (loaded_ask r key listed) with rfl | before
      · exact .inl rfl
      · exact .inr (Finset.mem_filter.2 ⟨Finset.mem_union_right _ before, new⟩)
  exact (Finset.card_le_card inside).trans (Finset.card_insert_le _ _)

/-- A name that was asked for is answered from then on. -/
theorem card_unasked_ask {key : String} (listed : key ∈ names) (new : r.answer? key = none) :
    (unasked names (r.ask key).2).card < (unasked names r).card := by
  apply Finset.card_lt_card
  -- Answers are never lost, and the name itself is answered now.
  refine ⟨fun name h => ?_, fun h => ?_⟩
  · obtain ⟨inside, unanswered⟩ := Finset.mem_filter.1 h
    refine Finset.mem_filter.2 ⟨inside, ?_⟩
    cases before : r.answer? name with
    | none => rfl
    | some answer =>
      rw [(Repository.extends_ask new).answer?_eq before] at unanswered
      cases unanswered
  · have still := (Finset.mem_filter.1 (h (Finset.mem_filter.2 ⟨listed, new⟩))).2
    rw [Repository.answer?_ask] at still
    cases still

theorem budget_tryLoad {name : String} (listed : normalizeClassName name ∈ names) :
    budget p names (r.tryLoad name).2 reached ≤ budget p names r reached := by
  unfold Repository.tryLoad
  split
  · exact Nat.le_refl _
  · rename_i new
    -- One entity more to reach at most, and one name less to ask for.
    have entities := card_unreached_ask p r reached (normalizeClassName name)
    have asked := card_unasked_ask listed new
    simp only [budget]
    omega

theorem budget_supply {needs : List Need} (listed : Need.names needs ⊆ names) :
    budget p names (Need.supply r needs).repository reached ≤ budget p names r reached := by
  induction needs generalizing r with
  | nil => exact Nat.le_refl _
  | cons need rest ih =>
    have others : Need.names rest ⊆ names := by
      refine Finset.Subset.trans (Finset.image_subset_image fun name h => ?_) listed
      rw [List.mem_toFinset, List.mem_filterMap] at h ⊢
      obtain ⟨other, known, named⟩ := h
      exact ⟨other, List.mem_cons_of_mem _ known, named⟩
    refine (ih others).trans ?_
    rw [Need.repository_meet]
    split
    · rename_i name named
      apply budget_tryLoad
      apply listed
      apply Finset.mem_image_of_mem
      rw [List.mem_toFinset, List.mem_filterMap]
      exact ⟨need, List.mem_cons_self, named⟩
    · exact Nat.le_refl _

theorem unreached_insert (p : Program) (r : Repository) (reached : Std.TreeSet Entity)
    (e : Entity) : unreached p r (reached.insert e) = (unreached p r reached).erase e := by
  ext x
  simp only [unreached, Finset.mem_filter, Finset.mem_erase, Std.TreeSet.contains_insert,
    Bool.or_eq_true, beq_iff_eq, Std.LawfulEqCmp.compare_eq_iff_eq, not_or]
  constructor
  · rintro ⟨listed, different, new⟩
    exact ⟨Ne.symm different, listed, new⟩
  · rintro ⟨different, listed, new⟩
    exact ⟨listed, Ne.symm different, new⟩

theorem budget_insert_le (e : Entity) :
    budget p names r (reached.insert e) ≤ budget p names r reached := by
  rw [budget, unreached_insert]
  exact Nat.add_le_add_right (Finset.card_erase_le) _

theorem budget_insert_lt {e : Entity} (candidate : e ∈ p.nodes ∪ r.loaded)
    (new : ¬ reached.contains e) :
    budget p names r (reached.insert e) < budget p names r reached := by
  rw [budget, unreached_insert]
  apply Nat.add_lt_add_right
  exact Finset.card_erase_lt_of_mem (Finset.mem_filter.2 ⟨candidate, new⟩)

end Budget

/-! ## Every completion ends -/

section

variable {scene : Scene} {names : Finset String} {bound : Nat} {s s' : State}
  {source : Option Entity} {e : Entity}

/-- At most `bound` things are left to do, and `names` has all names that can be asked for. -/
structure Bounded (scene : Scene) (names : Finset String) (bound : Nat) (s : State) : Prop where
  covers : Covers scene names s.repository
  budget_le : budget scene.program names s.repository s.reached ≤ bound

theorem reached_visit {verdict : Except SupportError (List Step)}
    (visited : s.visit scene source e = (verdict, s')) : s'.reached = s.reached.insert e := by
  rcases State.visit_cases s scene source e with ⟨error, -, shape⟩ | ⟨expansion, -, shape⟩ <;>
    rw [shape] at visited <;> cases visited
  · rfl
  · exact (State.noteNullable_frame _ _ _).1

/-- A visit that leads to steps uses up a part of the budget. -/
theorem Bounded.visit_ok {steps : List Step} (h : Bounded scene names bound s)
    (new : ¬ s.isReached e) (visited : s.visit scene source e = (.ok steps, s')) :
    Bounded scene names bound s' ∧
      (steps ≠ [] → ∃ smaller < bound, Bounded scene names smaller s') := by
  obtain ⟨expansion, applied, rfl, same⟩ := State.visit_eq_ok visited
  obtain ⟨needs, asked, rfl⟩ := Scene.expand_eq_ok applied
  have covers : Covers scene names s'.repository := same ▸ h.covers.supply needs
  have supplied : budget scene.program names s'.repository s'.reached ≤
      budget scene.program names s.repository (s.reached.insert e) := by
    rw [same, reached_visit visited]
    exact budget_supply (h.covers.names_subset asked)
  -- Reaching the entity lowers the budget if it counts, and loading classes does not raise it.
  refine ⟨⟨covers, ?_⟩, fun busy => ⟨_, ?_, covers, supplied⟩⟩
  · exact (supplied.trans (budget_insert_le e)).trans h.budget_le
  · refine (budget_insert_lt ?_ new).trans_le h.budget_le
    have wanted : needs ≠ [] := by
      rintro rfl
      exact busy rfl
    rw [Finset.mem_union]
    rcases Scene.mem_nodes_or_loaded asked wanted with node | ⟨i, inside, rfl⟩
    · exact .inl node
    · exact .inr (Finset.mem_image_of_mem _ (Finset.mem_range.2 inside))

theorem Bounded.visit {verdict : Except SupportError (List Step)} (h : Bounded scene names bound s)
    (new : ¬ s.isReached e) (visited : s.visit scene source e = (verdict, s')) :
    Bounded scene names bound s' := by
  cases verdict with
  | ok steps => exact (h.visit_ok new visited).1
  | error error =>
    have same := (State.visit_eq_error visited).2
    refine ⟨same ▸ h.covers, ?_⟩
    rw [same, reached_visit visited]
    exact (budget_insert_le e).trans h.budget_le

theorem Bounded.completes {frame : Worklist.Frame} {outcome : Outcome}
    (h : Bounded scene names bound s) (ended : Completes scene s frame outcome) :
    Bounded scene names bound outcome.state :=
  ended.preserves (fun _ _ _ _ _ visited new _ h => h.visit new visited) h

/-- Dealing with any frame from this state ends. -/
def Terminates (scene : Scene) (s : State) : Prop :=
  ∀ frame, ∃ outcome, Completes scene s frame outcome

/-- A visit costs something, so what follows it is bounded by less. -/
theorem exists_completes_visit
    (smaller : ∀ less < bound, ∀ s, Bounded scene names less s → Terminates scene s)
    (h : Bounded scene names bound s) (new : ¬ s.isReached e)
    (free : s.unreachedOwner? scene.program e = none) :
    ∃ outcome, Completes scene s (.pending source e) outcome := by
  rcases visited : s.visit scene source e with ⟨error | steps, s'⟩
  · exact ⟨_, .ruleFailed new free visited⟩
  · by_cases idle : steps = []
    · subst idle
      exact ⟨_, .ruleApplied new free visited .noStep⟩
    · obtain ⟨less, lower, bounded⟩ := (h.visit_ok new visited).2 idle
      obtain ⟨outcome, rest⟩ := smaller less lower s' bounded (.expanding e steps)
      exact ⟨outcome, .ruleApplied new free visited rest⟩

/-- Going up to the owner costs nothing, but there are only a few owners above an entity. -/
theorem exists_completes_pending
    (smaller : ∀ less < bound, ∀ s, Bounded scene names less s → Terminates scene s)
    (h : Bounded scene names bound s) :
    ∃ outcome, Completes scene s (.pending source e) outcome := by
  -- The owner is lower by `Program.height_owner`, and is marked within the same bound.
  induction high : e.height using Nat.strong_induction_on generalizing e with
  | _ height ih =>
    by_cases new : s.isReached e
    · exact ⟨_, .reached new⟩
    cases missing : s.unreachedOwner? scene.program e with
    | none => exact exists_completes_visit smaller h new missing
    | some owner =>
      obtain ⟨owns, -⟩ := State.unreachedOwner?_eq_some.1 missing
      obtain ⟨⟨error | _, s'⟩, above⟩ := ih _ (high ▸ (Program.height_owner owns).1) rfl
      · exact ⟨_, .ownerFailed new missing above⟩
      · by_cases known : s'.isReached e
        · exact ⟨_, .ownerDone new missing above (.reached known)⟩
        · have free := above.unreachedOwner?_eq_none missing
          obtain ⟨outcome, again⟩ := exists_completes_visit smaller (h.completes above) known free
          exact ⟨outcome, .ownerDone new missing above again⟩

theorem exists_completes_expanding
    (smaller : ∀ less < bound, ∀ s, Bounded scene names less s → Terminates scene s)
    (h : Bounded scene names bound s) (steps : List Step) :
    ∃ outcome, Completes scene s (.expanding e steps) outcome := by
  -- Steps that follow start from the state that the first one leaves, which is bounded as well.
  induction steps generalizing s with
  | nil => exact ⟨_, .noStep⟩
  | cons step steps ih =>
    cases asked : s.resolve? scene.program step with
    | none =>
      obtain ⟨outcome, rest⟩ := ih h
      exact ⟨outcome, .stepSkipped asked rest⟩
    | some target =>
      obtain ⟨⟨error | _, s'⟩, taken⟩ := exists_completes_pending smaller h
      · exact ⟨_, .stepFailed asked taken⟩
      · obtain ⟨outcome, rest⟩ := ih (h.completes taken)
        exact ⟨outcome, .stepTaken asked taken rest⟩

theorem Bounded.terminates (h : Bounded scene names bound s) : Terminates scene s := by
  induction bound using Nat.strong_induction_on generalizing s with
  | _ bound smaller =>
    intro frame
    have lower : ∀ less < bound, ∀ s, Bounded scene names less s → Terminates scene s :=
      fun less lower s bounded => smaller less lower bounded
    cases frame with
    | pending source e => exact exists_completes_pending lower h
    | expanding e steps => exact exists_completes_expanding lower h steps

/-- Dealing with a frame ends from every state. -/
theorem exists_completes (scene : Scene) (s : State) (frame : Worklist.Frame) :
    ∃ outcome, Completes scene s frame outcome := by
  obtain ⟨names, covers⟩ := exists_covers scene s.repository
  exact (Bounded.terminates ⟨covers, Nat.le_refl _⟩) frame

end

end Liveset
