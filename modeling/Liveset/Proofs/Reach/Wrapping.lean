import Liveset.Proofs.Program.RoundTrip
import Liveset.Proofs.Reach.Evaluation

/-!
# Wrapped types

A pass notes a type as wrapped when it visits an instance of the type whose instances may be absent.
The note is made when the rule of the instance is applied, and the rule of an instance never fails;
so in every state the notes are those of the reached instances (`State.NotesWrapped`).

Main statement: in a program that was read from a document the notes are exact throughout a pass,
whether or not its calls fail, they only grow, and they are of type definitions
(`notesExactly_after`).
-/

set_option autoImplicit false

namespace Liveset

variable {scene : Scene} {s s' : State} {source : Option Entity} {e : Entity}

/-- The types noted as wrapped are those that some reached type wraps. -/
def State.NotesWrapped (p : Program) (s : State) : Prop :=
  ∀ t, t ∈ s.nullable ↔ ∃ id, s.isReached (.type id) ∧ p.nullableUse? id = some t

/-- The type that an entity wraps, if it does. -/
def Program.wrapped? (p : Program) : Entity → Option TypeId
  | .type id => p.nullableUse? id
  | _ => none

theorem State.mem_nullable_noteNullable {p : Program} {t : TypeId} :
    t ∈ (s.noteNullable p e).nullable ↔ p.wrapped? e = some t ∨ t ∈ s.nullable := by
  cases e with
  | type id =>
    simp only [noteNullable, Program.wrapped?]
    cases p.nullableUse? id with
    | none => simp
    | some wrapped =>
      simp only [Std.TreeSet.mem_insert, Std.LawfulEqCmp.compare_eq_iff_eq, Option.some.injEq]
  | _ => simp [noteNullable, Program.wrapped?]

/-- The rule of a type that wraps another one does not fail. -/
theorem Scene.expand_of_wrapped {r : Repository} {t : TypeId}
    (wraps : scene.program.wrapped? e = some t) : ∃ x, scene.expand r e = .ok x := by
  cases e with
  | type id =>
    simp only [Program.wrapped?, Program.nullableUse?] at wraps
    split at wraps
    · rename_i element arguments found
      have rule : scene.needs r (.type id) =
          .ok (Program.specificationRule (.genericInstance element arguments)) := by
        simp only [needs, typeRule, found]
      exact ⟨_, by rw [expand, rule]; rfl⟩
    · cases wraps
  | _ => cases wraps

/-- Visits keep the notes. -/
theorem keptByVisits_notesWrapped (scene : Scene) :
    KeptByVisits scene (State.NotesWrapped scene.program) := by
  intro s s' source e verdict visited new free noted t
  -- A visit adds the note of the entity visited, and no other.
  have added : t ∈ s'.nullable ↔ scene.program.wrapped? e = some t ∨ t ∈ s.nullable := by
    rcases s.visit_cases scene source e with ⟨error, failed, same⟩ | ⟨x, -, same⟩ <;>
      rw [same] at visited <;> cases visited
    · have plain : scene.program.wrapped? e ≠ some t := by
        intro wraps
        obtain ⟨x, applied⟩ := Scene.expand_of_wrapped (r := s.repository) wraps
        rw [failed] at applied
        cases applied
      exact ⟨.inr, fun either => either.resolve_left plain⟩
    · exact State.mem_nullable_noteNullable
  rw [added, noted t]
  constructor
  · rintro (wraps | ⟨id, reached, wraps⟩)
    · cases e with
      | type id => exact ⟨id, (State.isReached_visit visited).2 (.inl rfl), wraps⟩
      | _ => cases wraps
    · exact ⟨id, (State.isReached_visit visited).2 (.inr reached), wraps⟩
  · rintro ⟨id, reached, wraps⟩
    rcases (State.isReached_visit visited).1 reached with rfl | before
    · exact .inl wraps
    · exact .inr ⟨id, before, wraps⟩

/-- Throughout whatever calls of a fresh session the notes are those of the reached types. -/
theorem Session.notesWrapped_after (scene : Scene) (strategy : Strategy) (loader : Loader)
    (recordRetention : Bool) (calls : List Call) :
    ((fresh scene strategy loader recordRetention).after calls).state.NotesWrapped scene.program ∧
      ∀ m, (fresh scene strategy loader recordRetention).PassesThrough calls m →
        m.state.NotesWrapped scene.program := by
  have start : (fresh scene strategy loader recordRetention).state.NotesWrapped scene.program := by
    intro t
    simp [fresh, State.isReached]
  exact preserves_after
    (keptByVisits_notesWrapped (fresh scene strategy loader recordRetention).scene)
    (fun s noted => noted) start calls

/-! ## What is noted -/

/-- The type is an instance of the type whose instances may be absent, and its first argument
denotes `wrapped`. -/
def Program.Wraps (p : Program) (id wrapped : TypeId) : Prop :=
  ∃ element arguments first,
    p.type? id = some (.specification (.genericInstance element arguments)) ∧
    p.isNullable element ∧ arguments.head? = some first ∧ p.resolveType? first = some wrapped

theorem Program.nullableUse?_eq_some_iff {p : Program} {id wrapped : TypeId} :
    p.nullableUse? id = some wrapped ↔ p.Wraps id wrapped := by
  constructor
  · intro used
    rw [nullableUse?] at used
    split at used
    · rename_i element arguments found
      obtain ⟨absent, denoted⟩ := Option.ite_none_right_eq_some.1 used
      obtain ⟨first, head, resolved⟩ := Option.bind_eq_some_iff.1 denoted
      exact ⟨element, arguments, first, found, absent, head, resolved⟩
    · cases used
  · rintro ⟨element, arguments, first, found, absent, head, resolved⟩
    simp only [nullableUse?, found, absent, head, if_true, Option.bind_some]
    exact resolved

/-- The types noted are those that a reached instance wraps, and they are type definitions. -/
structure State.NotesExactly (p : Program) (s : State) : Prop where
  wrapped : ∀ t, t ∈ s.nullable ↔ ∃ id, s.isReached (.type id) ∧ p.Wraps id t
  defined : ∀ t ∈ s.nullable, (p.typeDefinition? t).isSome

theorem State.NotesWrapped.exactly {p : Program} (noted : s.NotesWrapped p)
    (defines : p.NamesDefinitions) : s.NotesExactly p := by
  have wrapped (t : TypeId) : t ∈ s.nullable ↔ ∃ id, s.isReached (.type id) ∧ p.Wraps id t := by
    simp only [noted t, Program.nullableUse?_eq_some_iff]
  constructor
  case wrapped => exact wrapped
  case defined =>
    intro t member
    obtain ⟨id, -, element, arguments, first, -, -, -, resolved⟩ := (wrapped t).1 member
    exact defines.isSome_typeDefinition? resolved

/-- Notes are not lost while the reached entities grow. -/
theorem State.NotesWrapped.mono {p : Program} (noted : s.NotesWrapped p)
    (noted' : s'.NotesWrapped p) (grown : s.Grows s') : ∀ t ∈ s.nullable, t ∈ s'.nullable := by
  intro t member
  obtain ⟨id, reached, wraps⟩ := (noted t).1 member
  exact (noted' t).2 ⟨id, grown.reached reached, wraps⟩

/-- The notes of wrapped types are exact. In a program that was read from a document, and after
whatever calls of a fresh session, failed ones included, a type is noted exactly if some reached
instance wraps it, and it is a type definition. The same holds in every state on the way; and no
note is lost, neither on the way nor by further calls. -/
theorem notesExactly_after {text : String} (scene : Scene) (strategy : Strategy) (loader : Loader)
    (recordRetention : Bool) (calls : List Call)
    (parsed : Program.parse? text = some scene.program) :
    let session := Session.fresh scene strategy loader recordRetention
    (session.after calls).state.NotesExactly scene.program ∧
      (∀ m, session.PassesThrough calls m → m.state.NotesExactly scene.program ∧
        ∀ t ∈ m.state.nullable, t ∈ (session.after calls).state.nullable) ∧
      ∀ more, ∀ t ∈ (session.after calls).state.nullable,
        t ∈ (session.after (calls ++ more)).state.nullable := by
  intro session
  have defines := Program.namesDefinitions_of_parse? parsed
  have noted (calls : List Call) :=
    Session.notesWrapped_after scene strategy loader recordRetention calls
  obtain ⟨final, before⟩ := noted calls
  refine ⟨final.exactly defines, fun m through => ⟨?_, ?_⟩, fun more => ?_⟩
  · exact (before m through).exactly defines
  · exact (before m through).mono final through.grows
  · exact final.mono (noted (calls ++ more)).1 (session.grows_after_append calls more)

/-- `Nullable` has a generic parameter, for which there is no support, so its rule fails. The first
instance of it has it by a reference, the second one through a derived type; the third instance is
one of another type. -/
def wrappers : Program where
  types := #[
    .definition { namespaceName := "System", name := "Nullable`1", genericParameters := [⟨0⟩] },
    .definition { namespaceName := "App", name := "Point" },
    .reference "App.Point",
    .reference "System.Nullable`1",
    .specification (.genericInstance ⟨3⟩ [⟨2⟩]),
    .definition { namespaceName := "App", name := "Size" },
    .specification (.byReference ⟨3⟩),
    .specification (.genericInstance ⟨6⟩ [⟨5⟩, ⟨2⟩]),
    .definition { namespaceName := "App", name := "Box`1" },
    .definition { namespaceName := "App", name := "Label" },
    .specification (.genericInstance ⟨8⟩ [⟨9⟩])]
  genericParameters := #[{ owner := .type ⟨0⟩, name := "T" }]

set_option maxRecDepth 4000 in
/-- Marking the instances notes the types wrapped in the first two, before the rule of `Nullable`
fails and though these types are not reached. -/
theorem notesExactly_wrappers :
    let p := wrappers.rebuild
    let session :=
      Session.fresh { program := p, includes := fun _ => false } .recursive .empty false
    let calls : List Call :=
      [.mark (some (.type ⟨4⟩)), .mark (some (.type ⟨7⟩)), .mark (some (.type ⟨10⟩))]
    Program.parse? p.document = some p ∧
      (session.history calls).map (·.1.isOk) = [false, true, true] ∧
      (session.after calls).state.NotesExactly p ∧
      (session.after calls).state.nullable.toList = [⟨1⟩, ⟨5⟩] ∧
      p.Wraps ⟨4⟩ ⟨1⟩ ∧ p.Wraps ⟨7⟩ ⟨5⟩ ∧ (session.after calls).isReached (.type ⟨9⟩) := by
  intro p session calls
  have read : Program.ofForm? wrappers.form = some wrappers := rfl
  have loaded : Program.parse? p.document = some p :=
    Program.parse?_document_rebuild read (by decide +kernel)
  have tested := session.attempt_any calls 100
    (fun entries final => entries.map (·.1.isOk) = [false, true, true] &&
      final.state.nullable.toList = [⟨1⟩, ⟨5⟩] && final.isReached (.type ⟨9⟩)) (by decide +kernel)
  simp only [Bool.and_eq_true, decide_eq_true_eq] at tested
  obtain ⟨⟨verdicts, noted⟩, reached⟩ := tested
  refine ⟨loaded, verdicts, (notesExactly_after session.scene _ _ _ calls loaded).1, noted, ?_,
    ?_, reached⟩
  · exact Program.nullableUse?_eq_some_iff.1 (by decide +kernel)
  · exact Program.nullableUse?_eq_some_iff.1 (by decide +kernel)

end Liveset
