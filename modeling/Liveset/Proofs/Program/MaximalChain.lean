import Liveset.Proofs.Program.BaseChain
import Liveset.Proofs.Program.RoundTrip
import Mathlib.Computability.StateTransition
import Mathlib.Data.Finset.Card
import Mathlib.Data.List.Chain

/-!
# The maximal base chain

The base types of a type are collected by a loop that goes from a definition to what its base type
denotes, until that is nothing or was seen before. An `Ascent` is a state of this loop and
`Ascent.next?` one turn of it; nothing bounds the number of turns.

Each turn takes one definition from those that are not seen yet, so the loop ends
(`Ascent.exists_mem_eval`). What it has collected by then is a `MaximalChain`
(`Ascent.Sound.maximalChain`): different definitions, each denoted by the base type of the one
before, of which the last leads nowhere or back. There is one such chain only, and it is the one
that the walk with a bound finds (`MaximalChain.eq_baseTypes`).
-/

set_option autoImplicit false

namespace Liveset.Program

variable {p : Program} {id : TypeId}

/-! ## Maximal chains -/

/-- The chain consists of different definitions, leads from the type along base types and cannot be
continued without coming back to a type. -/
structure MaximalChain (p : Program) (id : TypeId) (chain : List TypeId) : Prop where
  nodup : chain.Nodup
  fresh : id ∉ chain
  defined : ∀ base ∈ chain, (p.typeDefinition? base).isSome
  /-- The chain starts with what the base type of the type denotes, if that is another type. -/
  starts : ∀ base, p.HasBase id base → base ≠ id → chain.head? = some base
  linked : List.IsChain p.HasBase (id :: chain)
  /-- What the base type of the last type denotes, if anything, has come up before. -/
  ends : ∀ base, p.HasBase (chain.getLastD id) base → base = id ∨ base ∈ chain

/-- A chain with no way on but back starts with the base type, unless that is the type itself. -/
theorem head?_eq_some_of_hasBase {chain : List TypeId}
    (linked : List.IsChain p.HasBase (id :: chain))
    (ends : ∀ base, p.HasBase (chain.getLastD id) base → base = id ∨ base ∈ chain) {base : TypeId}
    (above : p.HasBase id base) (other : base ≠ id) : chain.head? = some base := by
  cases chain with
  | nil =>
    rcases ends base above with same | listed
    · exact absurd same other
    · cases listed
  | cons first rest =>
    rw [above.unique (List.isChain_cons_cons.1 linked).1]
    rfl

/-- The walk follows a chain that comes back to no type seen, up to where every way on leads
back. -/
theorem baseTypesFrom_eq_of_isChain {fuel : Nat} {seen chain : List TypeId}
    (linked : List.IsChain p.HasBase (id :: chain)) (nodup : (chain.reverse ++ seen).Nodup)
    (ends : ∀ base, p.HasBase (chain.getLastD id) base → base ∈ chain.reverse ++ seen)
    (room : chain.length ≤ fuel) : p.baseTypesFrom fuel seen (p.baseReference? id) = chain := by
  induction chain generalizing fuel seen id with
  | nil => exact baseTypesFrom_of_seen ends
  | cons base rest ih =>
    obtain ⟨above, linked⟩ := List.isChain_cons_cons.1 linked
    -- The first type of the chain joins the types seen, and the walk is at that type.
    rw [List.reverse_cons, List.append_assoc, List.singleton_append] at nodup ends
    have new : base ∉ seen := (List.nodup_cons.1 (List.nodup_append.1 nodup).2.1).1
    cases fuel with
    | zero => cases room
    | succ fuel =>
      rw [baseTypesFrom_of_new above new]
      rw [List.getLastD_cons] at ends
      rw [ih linked nodup ends (Nat.le_of_succ_le_succ room)]

/-- The walk finds every maximal chain, so there is no other one than that which it finds. -/
theorem MaximalChain.eq_baseTypes {chain : List TypeId} (maximal : p.MaximalChain id chain) :
    p.baseTypes id = chain := by
  have short : chain.length ≤ p.types.size :=
    length_le_size TypeId.mk maximal.nodup fun base listed =>
      ⟨base.index, lt_size_of_isSome (maximal.defined base listed), rfl⟩
  apply baseTypesFrom_eq_of_isChain maximal.linked
  · rw [← List.reverse_cons, List.nodup_reverse]
    exact List.nodup_cons.2 ⟨maximal.fresh, maximal.nodup⟩
  · intro base above
    rw [← List.reverse_cons, List.mem_reverse, List.mem_cons]
    exact maximal.ends base above
  · exact Nat.le_succ_of_le short

/-! ## The loop -/

/-- A state of the loop: the chain so far, the types that end it when they come up again, and the
base type that is next. -/
structure Ascent where
  chain : List TypeId
  seen : List TypeId
  reference : Option TypeId
deriving DecidableEq, Inhabited, Repr

namespace Ascent

/-- The loop starts with the base type of the type. -/
def start (p : Program) (id : TypeId) : Ascent := ⟨[], [id], p.baseReference? id⟩

/-- One turn of the loop; none, if it ends. -/
def next? (p : Program) (a : Ascent) : Option Ascent :=
  match a.reference.bind p.resolveType? with
  | none => none
  | some base =>
    if base ∈ a.seen then none
    else some ⟨a.chain ++ [base], base :: a.seen, p.baseReference? base⟩

theorem next?_eq_some_iff {a a' : Ascent} :
    a.next? p = some a' ↔ ∃ base, a.reference.bind p.resolveType? = some base ∧ base ∉ a.seen ∧
      ⟨a.chain ++ [base], base :: a.seen, p.baseReference? base⟩ = a' := by
  unfold next?
  split
  · rename_i nothing
    simp [nothing]
  · rename_i base denoted
    simp [denoted]

theorem next?_eq_none_iff {a : Ascent} :
    a.next? p = none ↔ ∀ base, a.reference.bind p.resolveType? = some base → base ∈ a.seen := by
  unfold next?
  split
  · rename_i nothing
    simp [nothing]
  · rename_i base denoted
    simp [denoted]

/-! ## The loop ends -/

/-- The definitions that are not seen yet. -/
def unseen (p : Program) (a : Ascent) : Finset TypeId :=
  ((Finset.range p.types.size).image TypeId.mk).filter fun id =>
    (p.typeDefinition? id).isSome ∧ id ∉ a.seen

theorem mem_unseen {a : Ascent} :
    id ∈ a.unseen p ↔ (p.typeDefinition? id).isSome ∧ id ∉ a.seen := by
  rw [unseen, Finset.mem_filter, and_iff_right_iff_imp]
  rintro ⟨defined, -⟩
  exact Finset.mem_image.2 ⟨id.index, Finset.mem_range.2 (lt_size_of_isSome defined), rfl⟩

/-- Each turn takes one definition from those that are not seen yet. -/
theorem card_unseen_lt (names : p.NamesDefinitions) {a a' : Ascent} (turn : a.next? p = some a') :
    (a'.unseen p).card < (a.unseen p).card := by
  obtain ⟨base, denoted, new, rfl⟩ := next?_eq_some_iff.1 turn
  obtain ⟨reference, -, resolved⟩ := Option.bind_eq_some_iff.1 denoted
  have taken : base ∈ a.unseen p := mem_unseen.2 ⟨names.isSome_typeDefinition? resolved, new⟩
  apply Finset.card_lt_card
  refine (Finset.ssubset_iff_of_subset ?_).2 ⟨base, taken, ?_⟩
  · intro id left
    obtain ⟨defined, unseen⟩ := mem_unseen.1 left
    exact mem_unseen.2 ⟨defined, fun seen => unseen (List.mem_cons_of_mem base seen)⟩
  · intro left
    exact (mem_unseen.1 left).2 List.mem_cons_self

/-- The loop ends, whatever state it is in. -/
theorem exists_mem_eval (names : p.NamesDefinitions) (a : Ascent) :
    ∃ last, last ∈ StateTransition.eval (next? p) a := by
  --  The induction is on the number of definitions not seen; the state need not be one that the
  -- loop gets to.
  induction a using (measure fun a : Ascent => (a.unseen p).card).wf.induction with
  | _ a ih =>
    cases turn : a.next? p with
    | none => exact ⟨a, StateTransition.mem_eval.2 ⟨.refl, turn⟩⟩
    | some a' =>
      obtain ⟨last, ended⟩ := ih a' (card_unseen_lt names turn)
      obtain ⟨reaches, final⟩ := StateTransition.mem_eval.1 ended
      exact ⟨last, StateTransition.mem_eval.2 ⟨.head turn reaches, final⟩⟩

/-! ## What the loop keeps -/

/-- The chain so far leads from the type along base types to where the next one is taken from, and
consists of definitions; the types seen are the type and those of the chain, and no two of them are
the same. -/
structure Sound (p : Program) (id : TypeId) (a : Ascent) : Prop where
  seen : a.seen = (id :: a.chain).reverse
  nodup : (id :: a.chain).Nodup
  defined : ∀ base ∈ a.chain, (p.typeDefinition? base).isSome
  linked : List.IsChain p.HasBase (id :: a.chain)
  reference : a.reference = p.baseReference? (a.chain.getLastD id)

theorem sound_start (p : Program) (id : TypeId) : (start p id).Sound p id where
  seen := rfl
  nodup := List.nodup_singleton id
  defined _ listed := absurd listed List.not_mem_nil
  linked := .singleton id
  reference := rfl

theorem Sound.next {a a' : Ascent} (names : p.NamesDefinitions) (sound : a.Sound p id)
    (turn : a.next? p = some a') : a'.Sound p id := by
  obtain ⟨base, denoted, new, rfl⟩ := next?_eq_some_iff.1 turn
  -- The new type is what the base type of the last one so far denotes.
  have above : p.HasBase (a.chain.getLastD id) base := by
    rw [HasBase, ← sound.reference]
    exact denoted
  obtain ⟨reference, -, resolved⟩ := Option.bind_eq_some_iff.1 denoted
  rw [sound.seen, List.mem_reverse] at new
  constructor
  case seen => simp [sound.seen]
  case nodup =>
    rw [← List.cons_append, (List.perm_append_singleton base _).nodup_iff]
    exact List.nodup_cons.2 ⟨new, sound.nodup⟩
  case defined =>
    intro other listed
    rcases List.mem_append.1 listed with before | here
    · exact sound.defined other before
    · rw [List.mem_singleton.1 here]
      exact names.isSome_typeDefinition? resolved
  case linked =>
    rw [← List.cons_append]
    refine sound.linked.append (.singleton base) ?_
    intro last atEnd first atStart
    rw [List.getLast?_cons, ← List.getLastD_eq_getLast?] at atEnd
    cases atEnd
    cases atStart
    exact above
  case reference => simp

theorem Sound.of_reaches {a a' : Ascent} (names : p.NamesDefinitions) (sound : a.Sound p id)
    (reaches : StateTransition.Reaches (next? p) a a') : a'.Sound p id := by
  induction reaches with
  | refl => exact sound
  | tail _ turn ih => exact ih.next names turn

/-- Where the loop ends it has collected a maximal chain. -/
theorem Sound.maximalChain {a : Ascent} (sound : a.Sound p id) (final : a.next? p = none) :
    p.MaximalChain id a.chain := by
  obtain ⟨fresh, nodup⟩ := List.nodup_cons.1 sound.nodup
  have ends : ∀ base, p.HasBase (a.chain.getLastD id) base → base = id ∨ base ∈ a.chain := by
    intro base above
    rw [HasBase, ← sound.reference] at above
    have seen := next?_eq_none_iff.1 final base above
    rwa [sound.seen, List.mem_reverse, List.mem_cons] at seen
  exact ⟨nodup, fresh, sound.defined, fun _ => head?_eq_some_of_hasBase sound.linked ends,
    sound.linked, ends⟩

end Ascent

/-! ## The base types -/

/-- In a program that was read from a document the loop ends for every type, with the base types as
its chain, and these are the one maximal chain of the type. -/
theorem baseTypes_eq_iff_maximalChain {text : String} (parsed : parse? text = some p)
    (id : TypeId) :
    (StateTransition.eval (Ascent.next? p) (.start p id)).map Ascent.chain =
      Part.some (p.baseTypes id) ∧
      ∀ chain, p.baseTypes id = chain ↔ p.MaximalChain id chain := by
  have names := namesDefinitions_of_parse? parsed
  obtain ⟨last, ended⟩ := Ascent.exists_mem_eval names (.start p id)
  obtain ⟨reaches, final⟩ := StateTransition.mem_eval.1 ended
  -- The loop ends with a maximal chain, and that is the one that the walk with a bound finds.
  have maximal := ((Ascent.sound_start p id).of_reaches names reaches).maximalChain final
  refine ⟨?_, fun chain => ⟨?_, MaximalChain.eq_baseTypes⟩⟩
  · rw [Part.eq_some_iff.2 ended, Part.map_some, maximal.eq_baseTypes]
  · rintro rfl
    rwa [maximal.eq_baseTypes]

/-- From `Leaf` the bases lead by a name, an instance and a reference to `Branch`, `Trunk` and
`Branch` again. The second `Branch` derives from a type that is not there, and `Root` from
itself. -/
def thicket : Program where
  types := #[
    .definition { namespaceName := "App", name := "Leaf", baseType := some ⟨1⟩ },
    .reference "App.Branch",
    .definition { namespaceName := "App", name := "Branch", baseType := some ⟨3⟩ },
    .specification (.genericInstance ⟨4⟩ [⟨0⟩]),
    .definition { namespaceName := "App", name := "Trunk", baseType := some ⟨5⟩ },
    .specification (.byReference ⟨1⟩),
    .definition { namespaceName := "App", name := "Branch", baseType := some ⟨7⟩ },
    .reference "App.Soil",
    .definition { namespaceName := "App", name := "Root", baseType := some ⟨8⟩ }]

/-- The circle closes at a type that is not the first one. -/
theorem maximalChain_thicket :
    let p := thicket.rebuild
    parse? p.document = some p ∧
      (StateTransition.eval (Ascent.next? p) (.start p ⟨0⟩)).map Ascent.chain =
        Part.some [⟨2⟩, ⟨4⟩] ∧
      p.MaximalChain ⟨0⟩ [⟨2⟩, ⟨4⟩] ∧ p.HasBase ⟨4⟩ ⟨2⟩ ∧ p.MaximalChain ⟨6⟩ [] ∧
        p.MaximalChain ⟨8⟩ [] := by
  intro p
  have read : ofForm? thicket.form = some thicket := rfl
  have loaded : parse? p.document = some p := parse?_document_rebuild read (by decide +kernel)
  have found : p.baseTypes ⟨0⟩ = [⟨2⟩, ⟨4⟩] := by decide +kernel
  obtain ⟨ended, maximal⟩ := baseTypes_eq_iff_maximalChain loaded ⟨0⟩
  rw [found] at ended
  refine ⟨loaded, ended, (maximal _).1 found, by decide +kernel, ?_, ?_⟩
  · exact ((baseTypes_eq_iff_maximalChain loaded ⟨6⟩).2 _).1 (by decide +kernel)
  · exact ((baseTypes_eq_iff_maximalChain loaded ⟨8⟩).2 _).1 (by decide +kernel)

end Liveset.Program
