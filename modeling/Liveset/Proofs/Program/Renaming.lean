import Liveset.Program.Hierarchy
import Liveset.Proofs.Program.RoundTrip
import Liveset.Proofs.Program.Spelling
import Mathlib.Data.List.Find

/-!
# Renaming generic parameters

Signatures are compared by the names of their types. What a method overrides is the first of its
candidates, the virtual methods of its name along the base chain, whose signature is spelled like
its own once the parameters of the base types are bound (`Program.overridden?_eq_find?`). The
compositions that are spelled here mention only those generic parameters that stay unbound, so the
names of the others never matter. The names of those that do are compared as they are: two methods
with generic parameters of their own match if these happen to have the same names. But that is all
that can happen: renaming generic parameters consistently, by a one-to-one map of words that leaves
the texts in the compared signatures alone, changes no answer
(`Program.overridden?_eq_of_consistent`).
-/

set_option autoImplicit false

namespace Liveset.Program

/-! ## Candidates -/

/-- A method that may be overridden, with the compositions of its parameter types. -/
structure Candidate where
  signature : List Spelling
  method : MethodId

/-- The parameter types of a method as they are composed. -/
def signature (p : Program) (bound : Composed) (d : MethodDefinition) : List Spelling :=
  (p.parameterTypes d).map (p.composition bound)

/-- The method as a candidate for `name`: it must be virtual and have that name. -/
def candidate? (p : Program) (bound : Composed) (name : String) (id : MethodId) :
    Option Candidate :=
  (p.methodDefinition? id).bind fun d =>
    if d.flags.virtual && d.name = name then some ⟨p.signature bound d, id⟩ else none

/-- What the arguments of the instance by which `reference` names a base type bind its parameters
to. -/
def baseComposed (p : Program) (reference : TypeId) (base : TypeDefinition) (outer : Composed) :
    Composed :=
  match p.type? reference with
  | some (.specification (.genericInstance _ arguments)) =>
    ((base.genericParameters.zip arguments).map fun pair =>
      (pair.1, p.composition outer pair.2)).reverse
  | _ => []

/-- The candidates for `name` from the type that `reference` denotes upwards, nearest first. -/
def candidatesFrom (p : Program) (name : String) :
    Nat → List TypeId → Composed → Option TypeId → List Candidate
  | 0, _, _, _ => []
  | _ + 1, _, _, none => []
  | fuel + 1, seen, outer, some reference =>
    match p.resolveType? reference with
    | none => []
    | some base =>
      if base ∈ seen then []
      else match p.typeDefinition? base with
        | none => []
        | some d =>
          let bound := p.baseComposed reference d outer
          d.methods.filterMap (p.candidate? bound name) ++
            p.candidatesFrom name fuel (base :: seen) bound d.baseType

/-- The candidates of a method. -/
def candidates (p : Program) (d : MethodDefinition) : List Candidate :=
  p.candidatesFrom d.name (p.types.size + 1) [d.declaringType] []
    (p.baseReference? d.declaringType)

theorem parameterNames_spelled (p : Program) (bound : Composed) (d : MethodDefinition) :
    p.parameterNames (p.spelled bound) d =
      (p.signature bound d).map (Spelling.string p.parameterName) := by
  rw [parameterNames, signature, List.map_map]
  exact List.map_congr_left fun id _ => p.nameWith_eq_string bound id

theorem baseBinding_spelled (p : Program) (reference : TypeId) (base : TypeDefinition)
    (outer : Composed) :
    p.baseBinding reference base (p.spelled outer) =
      p.spelled (p.baseComposed reference base outer) := by
  unfold baseBinding baseComposed
  cases p.type? reference with
  | none => rfl
  | some node =>
    cases node with
    | specification s =>
      cases s with
      | genericInstance element arguments =>
        show _ = Substitution.mk (List.map _ (List.reverse _))
        rw [List.map_reverse, List.map_map]
        refine congrArg (fun bindings => Substitution.mk (List.reverse bindings)) ?_
        refine List.map_congr_left fun pair _ => ?_
        exact congrArg (Prod.mk pair.1) (p.nameWith_eq_string outer pair.2)
      | _ => rfl
    | _ => rfl

theorem isOverridable_spelled (p : Program) (bound : Composed) (name : String) (texts : List String)
    (id : MethodId) :
    p.isOverridable (p.spelled bound) name texts id =
      (p.candidate? bound name id).any fun c =>
        c.signature.map (Spelling.string p.parameterName) = texts := by
  unfold isOverridable candidate?
  cases p.methodDefinition? id with
  | none => rfl
  | some d =>
    simp only [Option.bind_some, parameterNames_spelled]
    cases d.flags.virtual && d.name = name <;> simp

theorem method_of_candidate? {p : Program} {bound : Composed} {name : String} {id : MethodId}
    {c : Candidate} (found : p.candidate? bound name id = some c) : c.method = id := by
  obtain ⟨d, -, made⟩ := Option.bind_eq_some_iff.1 found
  split at made
  · cases made
    rfl
  · cases made

/-- Among the methods of one type, the first overridable one is the first candidate with the
texts. -/
theorem find?_isOverridable (p : Program) (bound : Composed) (name : String) (texts : List String)
    (methods : List MethodId) :
    methods.find? (p.isOverridable (p.spelled bound) name texts) =
      ((methods.filterMap (p.candidate? bound name)).find? fun c =>
        c.signature.map (Spelling.string p.parameterName) = texts).map Candidate.method := by
  rw [List.find?_filterMap, funext (p.isOverridable_spelled bound name texts)]
  cases found : methods.find? _ with
  | none => rfl
  | some id =>
    have matched := List.find?_some found
    obtain ⟨c, made, -⟩ := (Option.any_eq_true _ _).1 matched
    rw [Option.bind_some, made, Option.map_some, method_of_candidate? made]

/-- The walk along the base chain finds the first candidate with the given texts. -/
theorem overriddenFrom_eq_find? (p : Program) (name : String) (texts : List String) (fuel : Nat)
    (seen : List TypeId) (outer : Composed) (reference : Option TypeId) :
    p.overriddenFrom name texts fuel seen (p.spelled outer) reference =
      ((p.candidatesFrom name fuel seen outer reference).find? fun c =>
        c.signature.map (Spelling.string p.parameterName) = texts).map Candidate.method := by
  induction fuel generalizing seen outer reference with
  | zero => rfl
  | succ fuel ih =>
    cases reference with
    | none => rfl
    | some reference =>
      rw [overriddenFrom, candidatesFrom]
      cases p.resolveType? reference with
      | none => rfl
      | some base =>
        dsimp only
        split
        · rfl
        · cases p.typeDefinition? base with
          | none => rfl
          | some d =>
            dsimp only
            rw [baseBinding_spelled, find?_isOverridable, List.find?_append, Option.map_or, ih]
            cases ((d.methods.filterMap _).find? _).map Candidate.method <;> rfl

/-- A virtual method overrides the first of its candidates that is spelled like it. -/
theorem overridden?_eq_find? {p : Program} {m : MethodId} {d : MethodDefinition}
    (found : p.methodDefinition? m = some d) (virtual : d.flags.virtual) :
    p.overridden? m = ((p.candidates d).find? fun c =>
      c.signature.map (Spelling.string p.parameterName) =
        (p.signature [] d).map (Spelling.string p.parameterName)).map Candidate.method := by
  rw [candidates, ← overriddenFrom_eq_find?, ← parameterNames_spelled, overridden?, found]
  show (if d.flags.virtual then _ else none) = _
  rw [if_pos virtual, baseReference?]
  cases p.typeDefinition? d.declaringType <;> rfl

/-- The compositions that are compared to find what a method overrides. -/
def compared (p : Program) (m : MethodId) : List Spelling :=
  match p.methodDefinition? m with
  | some d => p.signature [] d ++ (p.candidates d).flatMap Candidate.signature
  | none => []

/-! ## Resolution under another naming -/

/-- Identical but for the names of the generic parameters. The index of names is derived data. -/
structure SameButNames (p q : Program) : Prop where
  types : p.types = q.types
  methods : p.methods = q.methods
  fields : p.fields = q.fields
  properties : p.properties = q.properties
  events : p.events = q.events
  parameters : p.parameters = q.parameters
  genericParameters : p.genericParameters.toList.map (fun g => { g with name := "" }) =
    q.genericParameters.toList.map fun g => { g with name := "" }
  attributes : p.attributes = q.attributes
  programAttributes : p.programAttributes = q.programAttributes
  entryPoints : p.entryPoints = q.entryPoints

/-- The names of the type definitions as they are composed, and the names in type references. -/
def typeNames (p : Program) : List Spelling :=
  (List.range p.types.size).filterMap fun i =>
    match p.type? ⟨i⟩ with
    | some (.definition _) => some (p.composition [] ⟨i⟩)
    | some (.reference fullName) => some (.text fullName)
    | _ => none

section

variable {p q : Program}

theorem bears_eq (p : Program) (name : String) (id : TypeId) :
    p.bears name id = ((p.typeDefinition? id).isSome &&
      (p.composition [] id).string p.parameterName = name) := by
  rw [bears, fullName, ← nameWith_eq_string]
  rfl

theorem composition_mem_typeNames {id : TypeId} {d : TypeDefinition}
    (found : p.typeDefinition? id = some d) : p.composition [] id ∈ p.typeNames := by
  have node := type?_of_typeDefinition? found
  refine List.mem_filterMap.2 ⟨id.index, List.mem_range.2 (lt_size_of_type? node), ?_⟩
  rw [node]

theorem text_mem_typeNames {fullName : String} {reference : TypeId}
    (named : p.type? reference = some (.reference fullName)) : .text fullName ∈ p.typeNames := by
  refine List.mem_filterMap.2 ⟨reference.index, List.mem_range.2 (lt_size_of_type? named), ?_⟩
  rw [named]

theorem typeDefinition?_congr (same : p.SameButNames q) :
    p.typeDefinition? = q.typeDefinition? := by
  funext id
  rw [typeDefinition?, type?, same.types]
  rfl

/-- A reference names the same definitions under a consistent naming. -/
theorem bears_of_consistent (same : p.SameButNames q)
    (consistent : Consistent p.parameterName q.parameterName p.typeNames) {fullName : String}
    {reference : TypeId} (named : p.type? reference = some (.reference fullName)) (id : TypeId) :
    p.bears fullName id = q.bears fullName id := by
  rw [bears_eq, bears_eq, ← typeDefinition?_congr same, ← composition_congr same.types]
  cases found : p.typeDefinition? id with
  | none => rfl
  | some d =>
    have alike := consistent.string_eq_iff (composition_mem_typeNames found)
      (text_mem_typeNames named)
    rw [Spelling.string_text, Spelling.string_text] at alike
    simp [alike]

theorem findType?_of_consistent (same : p.SameButNames q) (indexed : p.index = p.indexTypes)
    (indexed' : q.index = q.indexTypes)
    (consistent : Consistent p.parameterName q.parameterName p.typeNames) {fullName : String}
    {reference : TypeId} (named : p.type? reference = some (.reference fullName)) :
    p.findType? fullName = q.findType? fullName := by
  have agree := bears_of_consistent same consistent named
  refine Option.ext fun id => ?_
  simp only [findType?_eq_some_iff indexed, findType?_eq_some_iff indexed', agree]

theorem resolveType?_of_consistent (same : p.SameButNames q) (indexed : p.index = p.indexTypes)
    (indexed' : q.index = q.indexTypes)
    (consistent : Consistent p.parameterName q.parameterName p.typeNames) :
    p.resolveType? = q.resolveType? := by
  have within : ∀ fuel id, p.resolveTypeWithin fuel id = q.resolveTypeWithin fuel id := by
    intro fuel
    induction fuel with
    | zero => exact fun _ => rfl
    | succ fuel ih =>
      intro id
      have node : q.type? id = p.type? id := by rw [type?, type?, same.types]
      rw [resolveTypeWithin, resolveTypeWithin, node, funext ih]
      split
      case h_2 named => exact findType?_of_consistent same indexed indexed' consistent named
      all_goals rfl
  funext id
  exact within resolutionDepth id

theorem signature_congr (same : p.SameButNames q) : p.signature = q.signature := by
  funext bound d
  rw [signature, signature, composition_congr same.types, parameterTypes]
  simp only [parameter?, same.parameters]
  rfl

theorem candidate?_congr (same : p.SameButNames q) : p.candidate? = q.candidate? := by
  funext bound name id
  rw [candidate?, candidate?, signature_congr same, methodDefinition?, method?, same.methods]
  rfl

theorem baseComposed_congr (same : p.SameButNames q) : p.baseComposed = q.baseComposed := by
  funext reference base outer
  rw [baseComposed, baseComposed, composition_congr same.types, type?, same.types]
  rfl

theorem candidatesFrom_congr (same : p.SameButNames q) (resolve : p.resolveType? = q.resolveType?)
    (name : String) (fuel : Nat) (seen : List TypeId) (outer : Composed)
    (reference : Option TypeId) :
    p.candidatesFrom name fuel seen outer reference =
      q.candidatesFrom name fuel seen outer reference := by
  induction fuel generalizing seen outer reference with
  | zero => rfl
  | succ fuel ih =>
    cases reference with
    | none => rfl
    | some reference =>
      simp only [candidatesFrom, resolve, typeDefinition?_congr same, baseComposed_congr same,
        candidate?_congr same, ih]

theorem candidates_congr (same : p.SameButNames q) (resolve : p.resolveType? = q.resolveType?)
    (d : MethodDefinition) : p.candidates d = q.candidates d := by
  have base : p.baseReference? d.declaringType = q.baseReference? d.declaringType := by
    rw [baseReference?, baseReference?, typeDefinition?_congr same]
  rw [candidates, candidates, candidatesFrom_congr same resolve, base, same.types]

/-- What a method overrides does not depend on how generic parameters are named, as long as the
names of those that stay unbound in the compared signatures change consistently, and so do those in
the names of type definitions, if there are any. -/
theorem overridden?_eq_of_consistent {text text' : String} (loaded : parse? text = some p)
    (loaded' : parse? text' = some q) (same : p.SameButNames q)
    (names : Consistent p.parameterName q.parameterName p.typeNames) (m : MethodId)
    (signatures : Consistent p.parameterName q.parameterName (p.compared m)) :
    p.overridden? m = q.overridden? m := by
  have resolve : p.resolveType? = q.resolveType? :=
    resolveType?_of_consistent same (indexed_of_parse? loaded) (indexed_of_parse? loaded') names
  have method : p.methodDefinition? m = q.methodDefinition? m := by
    rw [methodDefinition?, method?, same.methods]
    rfl
  cases found : p.methodDefinition? m with
  | none =>
    rw [overridden?, overridden?, ← method, found]
    rfl
  | some d =>
    have found' := method ▸ found
    cases virtual : d.flags.virtual with
    | false =>
      rw [overridden?, overridden?, found, found']
      simp [virtual]
    | true =>
      rw [overridden?_eq_find? found virtual, overridden?_eq_find? found' virtual,
        ← candidates_congr same resolve, ← signature_congr same]
      -- The candidates are the same on both sides; only comparing them reads the names.
      refine congrArg (Option.map Candidate.method) (List.find?_congr fun c member => ?_)
      rw [compared, found] at signatures
      refine decide_eq_decide.2 (signatures.map_string_eq_iff ?_ ?_)
      · exact fun s inside =>
          List.mem_append_right _ (List.mem_flatMap.2 ⟨c, member, inside⟩)
      · exact fun s inside => List.mem_append_left _ inside

end

/-- A generic type with a method that takes one of its own parameters and a generic method, and a
type derived from an instance of it that overrides both. -/
def boxes (element result : String) : Program where
  types := #[
    .definition {
      namespaceName := "App", name := "Box", methods := [⟨0⟩, ⟨1⟩], genericParameters := [⟨0⟩] },
    .definition {
      namespaceName := "App", name := "IntBox", baseType := some ⟨2⟩, methods := [⟨2⟩, ⟨3⟩] },
    .specification (.genericInstance ⟨0⟩ [⟨3⟩]),
    .reference "System.Int32",
    .genericParameter ⟨0⟩,
    .genericParameter ⟨1⟩,
    .genericParameter ⟨2⟩,
    .specification (.array ⟨5⟩ 1),
    .specification (.array ⟨6⟩ 1)]
  methods := #[
    .definition {
      declaringType := ⟨0⟩, name := "Put", returnType := ⟨3⟩, parameters := [⟨0⟩],
      flags := { virtual := true } },
    .definition {
      declaringType := ⟨0⟩, name := "Map", returnType := ⟨3⟩, parameters := [⟨1⟩],
      genericParameters := [⟨1⟩], flags := { virtual := true } },
    .definition {
      declaringType := ⟨1⟩, name := "Put", returnType := ⟨3⟩, parameters := [⟨2⟩],
      flags := { virtual := true } },
    .definition {
      declaringType := ⟨1⟩, name := "Map", returnType := ⟨3⟩, parameters := [⟨3⟩],
      genericParameters := [⟨2⟩], flags := { virtual := true } }]
  parameters := #[
    { owner := .method ⟨0⟩, name := "item", parameterType := ⟨4⟩ },
    { owner := .method ⟨1⟩, name := "items", parameterType := ⟨7⟩ },
    { owner := .method ⟨2⟩, name := "item", parameterType := ⟨3⟩ },
    { owner := .method ⟨3⟩, name := "items", parameterType := ⟨8⟩ }]
  genericParameters := #[
    { owner := .type ⟨0⟩, name := element },
    { owner := .method ⟨1⟩, name := result },
    { owner := .method ⟨3⟩, name := result }]

/-- The parameter of the type may take any name, even that of the parameters of the methods; theirs
change together. -/
theorem overridden?_boxes :
    let p := (boxes "T" "U").rebuild
    let q := (boxes "Result" "Result").rebuild
    parse? p.document = some p ∧ parse? q.document = some q ∧ p.SameButNames q ∧
      Consistent p.parameterName q.parameterName p.typeNames ∧
      Consistent p.parameterName q.parameterName (p.compared ⟨2⟩) ∧
      Consistent p.parameterName q.parameterName (p.compared ⟨3⟩) ∧
      p.overridden? ⟨2⟩ = q.overridden? ⟨2⟩ ∧ p.overridden? ⟨3⟩ = q.overridden? ⟨3⟩ ∧
      p.overridden? ⟨2⟩ = some ⟨0⟩ ∧ p.overridden? ⟨3⟩ = some ⟨1⟩ := by
  intro p q
  have read : ∀ element result,
      ofForm? (boxes element result).form = some (boxes element result) := fun _ _ => rfl
  have loaded : parse? p.document = some p :=
    parse?_document_rebuild (read "T" "U") (by decide +kernel)
  have loaded' : parse? q.document = some q :=
    parse?_document_rebuild (read "Result" "Result") (by decide +kernel)
  have same : p.SameButNames q := by constructor <;> rfl
  have names : Consistent p.parameterName q.parameterName p.typeNames :=
    ⟨.keep, by decide +kernel⟩
  have put : Consistent p.parameterName q.parameterName (p.compared ⟨2⟩) :=
    ⟨.keep, by decide +kernel⟩
  have map : Consistent p.parameterName q.parameterName (p.compared ⟨3⟩) :=
    ⟨.swap ['U'] ['R', 'e', 's', 'u', 'l', 't'] (by decide) (by decide), by decide +kernel⟩
  refine ⟨loaded, loaded', same, names, put, map, ?_, ?_, ?_, ?_⟩
  · exact overridden?_eq_of_consistent loaded loaded' same names ⟨2⟩ put
  · exact overridden?_eq_of_consistent loaded loaded' same names ⟨3⟩ map
  · decide +kernel
  · decide +kernel

/-- Two generic methods, the second in a type derived from that of the first. -/
def mapping (first second : String) : Program where
  types := #[
    .definition { namespaceName := "App", name := "Base", methods := [⟨0⟩] },
    .definition {
      namespaceName := "App", name := "Derived", baseType := some ⟨0⟩, methods := [⟨1⟩] },
    .genericParameter ⟨0⟩,
    .genericParameter ⟨1⟩,
    .reference "System.Void"]
  methods := #[
    .definition {
      declaringType := ⟨0⟩, name := "Map", returnType := ⟨4⟩, parameters := [⟨0⟩],
      genericParameters := [⟨0⟩], flags := { virtual := true } },
    .definition {
      declaringType := ⟨1⟩, name := "Map", returnType := ⟨4⟩, parameters := [⟨1⟩],
      genericParameters := [⟨1⟩], flags := { virtual := true } }]
  parameters := #[
    { owner := .method ⟨0⟩, name := "value", parameterType := ⟨2⟩ },
    { owner := .method ⟨1⟩, name := "value", parameterType := ⟨3⟩ }]
  genericParameters := #[
    { owner := .method ⟨0⟩, name := first },
    { owner := .method ⟨1⟩, name := second }]

/-- The names of the methods' own parameters decide whether one overrides the other. -/
theorem overridden?_depends_on_names :
    ¬ ∀ (text text' : String) (p q : Program), parse? text = some p → parse? text' = some q →
      p.SameButNames q → ∀ m, p.overridden? m = q.overridden? m := by
  intro always
  have read : ∀ first second,
      ofForm? (mapping first second).form = some (mapping first second) := fun _ _ => rfl
  have alike := parse?_document_rebuild (read "T" "T") (by decide +kernel)
  have apart := parse?_document_rebuild (read "T" "U") (by decide +kernel)
  have overrides : (mapping "T" "T").rebuild.overridden? ⟨1⟩ = some ⟨0⟩ := by decide +kernel
  have free : (mapping "T" "U").rebuild.overridden? ⟨1⟩ = none := by decide +kernel
  have same := always _ _ _ _ alike apart (by constructor <;> rfl) ⟨1⟩
  rw [overrides, free] at same
  cases same

end Liveset.Program
