import Liveset.Program.Index
import Liveset.Proofs.Program.Denotation
import Mathlib.Data.List.Chain

/-!
# The nearest overridden method

The base types of a type and the method that a method overrides are found by two walks up the base
chain. A `Level` is a type of that chain together with the binding of its generic parameters, which
is composed from level to level: each type binds the parameters of its base type to the arguments of
the instance by which it names it, spelled under the binding of its own.

The walk for the overridden method looks at exactly these levels, one after the other
(`overriddenFrom_eq_findSome?`). So what it finds is the first match at the nearest level that has
one, and it finds it whenever there is one (`overridden?_eq_some_iff`). In particular both walks
stop at the same type, be it that its base does not resolve or that it was met before.
-/

set_option autoImplicit false

namespace Liveset.Program

/-! ## Levels -/

/-- A type of a base chain, with what its generic parameters are bound to. -/
structure Level where
  type : TypeId
  binding : Substitution
deriving DecidableEq, Inhabited, Repr

/-- What a type binds the parameters of its base type to, if its own are bound by `outer`. -/
def boundBy (p : Program) (outer : Substitution) (derived base : TypeId) : Substitution :=
  match p.baseReference? derived, p.typeDefinition? base with
  | some reference, some d => p.baseBinding reference d outer
  | _, _ => {}

/-- The levels of a chain of types, the first of which is the base type of `derived`. -/
def levelsAlong (p : Program) (outer : Substitution) (derived : TypeId) : List TypeId → List Level
  | [] => []
  | base :: rest =>
    let binding := p.boundBy outer derived base
    ⟨base, binding⟩ :: p.levelsAlong binding base rest

/-- The levels of the base chain, nearest first. The parameters of the type itself are not bound. -/
def levels (p : Program) (id : TypeId) : List Level := p.levelsAlong {} id (p.baseTypes id)

/-- The methods that the type of a level lists. -/
def Level.methods (level : Level) (p : Program) : List MethodId :=
  ((p.typeDefinition? level.type).map (·.methods)).getD []

/-- The method is what `d` may override at this level: it is a virtual definition of the same name,
and its parameter types are named, under the binding of the level, as those of `d` are. -/
def Level.Matches (level : Level) (p : Program) (d : MethodDefinition) (id : MethodId) : Prop :=
  ∃ c, p.methodDefinition? id = some c ∧ c.flags.virtual ∧ c.name = d.name ∧
    p.parameterNames level.binding c = p.parameterNames {} d

/-- The method is the first match that the type of the level lists. -/
def Level.FirstMatch (level : Level) (p : Program) (d : MethodDefinition) (id : MethodId) : Prop :=
  FirstIn (level.Matches p d) (level.methods p) id

/-- The binding that one level passes on to the next: the parameters of the base type are bound to
the arguments of the instance by which the deriving type names it, spelled under the binding of the
deriving type. Of two arguments for one parameter the later one counts. A base type that is not
named by an instance has nothing bound. -/
def Level.BindsNext (p : Program) (level next : Level) : Prop :=
  ∀ parameter text, next.binding.text? parameter = some text ↔
    ∃ reference d element arguments before argument after,
      p.baseReference? level.type = some reference ∧ p.typeDefinition? next.type = some d ∧
      p.type? reference = some (.specification (.genericInstance element arguments)) ∧
      d.genericParameters.zip arguments = before ++ (parameter, argument) :: after ∧
      (∀ later ∈ after, later.1 ≠ parameter) ∧ p.nameWith level.binding argument = text

theorem text?_baseBinding (p : Program) (reference : TypeId) (d : TypeDefinition)
    (outer : Substitution) (parameter : GenericParameterId) (text : String) :
    (p.baseBinding reference d outer).text? parameter = some text ↔
      ∃ element arguments before argument after,
        p.type? reference = some (.specification (.genericInstance element arguments)) ∧
        d.genericParameters.zip arguments = before ++ (parameter, argument) :: after ∧
        (∀ later ∈ after, later.1 ≠ parameter) ∧ p.nameWith outer argument = text := by
  unfold baseBinding
  split
  · rename_i element arguments node
    rw [Substitution.text?, List.lookup_eq_some_iff]
    constructor
    · -- The bindings stand in reverse, so those that are passed over belong to later arguments.
      rintro ⟨later, earlier, split, passed⟩
      rw [List.reverse_eq_append_iff, List.reverse_cons, List.append_assoc,
        List.singleton_append] at split
      obtain ⟨before, rest, pairs, -, tail⟩ := List.map_eq_append_iff.1 split
      obtain ⟨⟨_, argument⟩, after, rfl, here, others⟩ := List.map_eq_cons_iff.1 tail
      cases here
      refine ⟨element, arguments, before, argument, after, node, pairs, ?_, rfl⟩
      intro pair listed same
      have bound : (pair.1, p.nameWith outer pair.2) ∈ later := by
        rw [← List.mem_reverse, ← others]
        exact List.mem_map_of_mem listed
      have different := passed _ bound
      rw [same, bne_self_eq_false] at different
      cases different
    · rintro ⟨_, _, before, argument, after, node', pairs, last, rfl⟩
      cases node.symm.trans node'
      rw [pairs, List.map_append, List.map_cons, List.reverse_append, List.reverse_cons,
        List.append_assoc]
      refine ⟨_, _, rfl, fun bound listed => ?_⟩
      obtain ⟨pair, member, rfl⟩ := List.mem_map.1 (List.mem_reverse.1 listed)
      rw [bne_iff_ne]
      exact (last pair member).symm
  · rename_i other
    constructor
    · intro found
      cases found
    · rintro ⟨element, arguments, _, _, _, node, -⟩
      exact absurd node (other element arguments)

theorem bindsNext_boundBy (p : Program) (level : Level) (base : TypeId) :
    level.BindsNext p ⟨base, p.boundBy level.binding level.type base⟩ := by
  intro parameter text
  unfold boundBy
  split
  · rename_i reference d named defined
    rw [text?_baseBinding]
    constructor
    · rintro ⟨element, arguments, before, argument, after, found⟩
      exact ⟨reference, d, element, arguments, before, argument, after, named, defined, found⟩
    · rintro ⟨_, _, element, arguments, before, argument, after, named', defined', found⟩
      cases named.symm.trans named'
      cases defined.symm.trans defined'
      exact ⟨element, arguments, before, argument, after, found⟩
  · rename_i missing
    constructor
    · intro found
      cases found
    · rintro ⟨reference, d, _, _, _, _, _, named, defined, -⟩
      exact absurd defined (missing reference d named)

/-- Bindings are passed on from level to level. -/
theorem isChain_levelsAlong (p : Program) (level : Level) (chain : List TypeId) :
    List.IsChain (Level.BindsNext p) (level :: p.levelsAlong level.binding level.type chain) := by
  induction chain generalizing level with
  | nil => exact .singleton level
  | cons base rest ih => exact .cons_cons (bindsNext_boundBy p level base) (ih _)

/-- The levels are those of the base types. -/
theorem map_type_levelsAlong (p : Program) (outer : Substitution) (derived : TypeId)
    (chain : List TypeId) : (p.levelsAlong outer derived chain).map Level.type = chain := by
  induction chain generalizing outer derived with
  | nil => rfl
  | cons base rest ih => exact congrArg (base :: ·) (ih _ base)

/-! ## The two walks -/

/-- The walk for an overridden method looks at the levels of the base types one after the other. -/
theorem overriddenFrom_eq_findSome? (p : Program) (name : String) (signature : List String)
    (fuel : Nat) (seen : List TypeId) (outer : Substitution) (derived : TypeId) :
    p.overriddenFrom name signature fuel seen outer (p.baseReference? derived) =
      (p.levelsAlong outer derived (p.baseTypesFrom fuel seen (p.baseReference? derived))).findSome?
        fun level => (level.methods p).find? (p.isOverridable level.binding name signature) := by
  induction fuel generalizing seen outer derived with
  | zero => rfl
  | succ fuel ih =>
    cases named : p.baseReference? derived with
    | none => rfl
    | some reference =>
      simp only [overriddenFrom, baseTypesFrom, Option.bind_some]
      cases p.resolveType? reference with
      | none => rfl
      | some base =>
        by_cases again : base ∈ seen
        · simp only [if_pos again]
          rfl
        · simp only [if_neg again, levelsAlong, List.findSome?_cons]
          cases defined : p.typeDefinition? base with
          | none =>
            -- The chain ends with a type that is no definition, where both walks find nothing more.
            have last : p.baseReference? base = none := by rw [baseReference?, defined]; rfl
            have ends : p.baseTypesFrom fuel (base :: seen) none = [] := by cases fuel <;> rfl
            simp only [Level.methods, defined, last, ends]
            rfl
          | some d =>
            have next : p.baseReference? base = d.baseType := by rw [baseReference?, defined]; rfl
            have bound : p.boundBy outer derived base = p.baseBinding reference d outer := by
              simp only [boundBy, named, defined]
            have listed (binding : Substitution) : Level.methods ⟨base, binding⟩ p = d.methods := by
              rw [Level.methods, defined]
              rfl
            rw [bound, listed, ← ih, next]
            cases found : d.methods.find?
              (p.isOverridable (p.baseBinding reference d outer) name signature)
            <;> simp only [found]

theorem isOverridable_iff (p : Program) (level : Level) (d : MethodDefinition) (id : MethodId) :
    p.isOverridable level.binding d.name (p.parameterNames {} d) id ↔ level.Matches p d id := by
  unfold isOverridable Level.Matches
  cases p.methodDefinition? id with
  | none => simp
  | some c => simp [and_assoc]

theorem find?_eq_none_iff_not_matches (p : Program) (level : Level) (d : MethodDefinition) :
    (level.methods p).find? (p.isOverridable level.binding d.name (p.parameterNames {} d)) = none ↔
      ∀ other ∈ level.methods p, ¬ level.Matches p d other := by
  simp only [List.find?_eq_none, isOverridable_iff]

/-- The walk finds the first match at the nearest level that has one. -/
theorem overriddenFrom_eq_some_iff (p : Program) (d : MethodDefinition) (base : MethodId) :
    p.overriddenFrom d.name (p.parameterNames {} d) (p.types.size + 1) [d.declaringType] {}
        (p.baseReference? d.declaringType) = some base ↔
      ∃ nearer level farther, p.levels d.declaringType = nearer ++ level :: farther ∧
        level.FirstMatch p d base ∧
        ∀ other ∈ nearer, ∀ id ∈ other.methods p, ¬ other.Matches p d id := by
  rw [overriddenFrom_eq_findSome?, List.findSome?_eq_some_iff]
  simp only [find?_eq_some_iff_firstIn (p.isOverridable_iff _ d), find?_eq_none_iff_not_matches]
  rfl

/-- A method overrides another one exactly if it is a virtual definition, declared by a definition,
and the other one is the first match at a level of its base chain such that no nearer level has a
match. The levels are those of the base types, in their order, and each passes its binding on to the
next, from nothing bound at the type itself. -/
theorem overridden?_eq_some_iff (p : Program) (method base : MethodId) :
    (∀ id, (p.levels id).map Level.type = p.baseTypes id) ∧
      (∀ id, List.IsChain (Level.BindsNext p) (⟨id, {}⟩ :: p.levels id)) ∧
      (p.overridden? method = some base ↔
        ∃ d, p.methodDefinition? method = some d ∧ d.flags.virtual ∧
          (p.typeDefinition? d.declaringType).isSome ∧
          ∃ nearer level farther, p.levels d.declaringType = nearer ++ level :: farther ∧
            level.FirstMatch p d base ∧
            ∀ other ∈ nearer, ∀ id ∈ other.methods p, ¬ other.Matches p d id) := by
  refine ⟨fun id => p.map_type_levelsAlong {} id _, fun id => p.isChain_levelsAlong ⟨id, {}⟩ _, ?_⟩
  constructor
  · intro found
    simp only [overridden?, Option.bind_eq_bind, Option.bind_eq_some_iff] at found
    obtain ⟨d, defined, found⟩ := found
    split at found
    · rename_i virtual
      obtain ⟨declaring, owned, found⟩ := Option.bind_eq_some_iff.1 found
      refine ⟨d, defined, virtual, by rw [owned]; rfl, (p.overriddenFrom_eq_some_iff d base).1 ?_⟩
      rw [baseReference?, owned]
      exact found
    · cases found
  · rintro ⟨d, defined, virtual, owned, found⟩
    obtain ⟨declaring, owned⟩ := Option.isSome_iff_exists.1 owned
    have found := (p.overriddenFrom_eq_some_iff d base).2 found
    rw [baseReference?, owned] at found
    simp only [overridden?, Option.bind_eq_bind, defined, owned, Option.bind_some, if_pos virtual]
    exact found

/-! ## A chain of instances -/

/-- `IntBox` derives from `Box` of numbers, which derives from `Shelf` of its own parameter. -/
def shelves : Program :=
  Program.rebuild {
    types := #[
      .definition
        { namespaceName := "App", name := "Shelf`1", methods := [⟨0⟩], genericParameters := [⟨0⟩] },
      .definition
        { namespaceName := "App", name := "Box`1", baseType := some ⟨6⟩,
          genericParameters := [⟨1⟩] },
      .definition {
        namespaceName := "App", name := "IntBox", baseType := some ⟨7⟩, methods := [⟨1⟩] },
      .definition { namespaceName := "System", name := "Int32" },
      .genericParameter ⟨0⟩,
      .genericParameter ⟨1⟩,
      .specification (.genericInstance ⟨0⟩ [⟨5⟩]),
      .specification (.genericInstance ⟨1⟩ [⟨3⟩])]
    methods := #[
      .definition
        { declaringType := ⟨0⟩, name := "Put", returnType := ⟨3⟩, parameters := [⟨0⟩]
          flags := { virtual := true } },
      .definition
        { declaringType := ⟨2⟩, name := "Put", returnType := ⟨3⟩, parameters := [⟨1⟩]
          flags := { virtual := true } }]
    parameters := #[
      { owner := .method ⟨0⟩, parameterType := ⟨4⟩ },
      { owner := .method ⟨1⟩, parameterType := ⟨3⟩ }]
    genericParameters := #[
      { owner := .type ⟨0⟩, name := "T" }, { owner := .type ⟨1⟩, name := "U" }] }

/-- Two levels up, the parameter of `Shelf` is bound to the numbers. -/
example : shelves.levels ⟨2⟩ =
  [⟨⟨1⟩, ⟨[(⟨1⟩, "System.Int32")]⟩⟩, ⟨⟨0⟩, ⟨[(⟨0⟩, "System.Int32")]⟩⟩] ∧
    shelves.overridden? ⟨1⟩ = some ⟨0⟩ := by
  decide +kernel

end Liveset.Program
